import CPUDelaySim.Log.Blocking

/-!
# What is written back

`SLICE_BUFFER_SIZE` leaves 1024 bytes after `SLICE_SIZE`, for the record that crosses it, but
`addData` hands a slice on only when it has reached `SLICE_BUFFER_SIZE`.  So the record that
crosses that goes past the end.  As long as no record does, the slices are the pieces of the
stream of records (`Contents`), each is compressed and written in its turn, and `close` writes
what is left.

`Contents` is the invariant of a run that is aligned: the four slices hold the pieces from
`written` on, with a frame (`Framed`) where one has been made, and the file holds the frames of the
pieces before.  The states of the slices come from `Rotates`, which knows nothing of their
contents, so each step has its lemma here and cites the one there.

`close` has two loops, and each has an invariant of its own: `LastPiece` for what the first one
compresses, `Drained` for what the second one writes.  `Crossed` is for the other direction: once a
copy has left its slice no later step undoes that.
-/

namespace CPUDelaySim

open Buffer (piece load store)

/-- The bytes of records, in order. -/
def stream (records : List Record) : List Byte := records.flatMap Record.bytes

/-- Laid out from `offset` on, no record crosses a multiple of `SLICE_BUFFER_SIZE`. -/
def Aligned : Nat → List Record → Prop
  | _, [] => True
  | offset, record :: rest =>
      offset % LogDB.sliceBufferSize + record.bytes.length ≤ LogDB.sliceBufferSize ∧
        Aligned (offset + record.bytes.length) rest

/-- One more record makes the stream longer by its bytes. -/
theorem stream_concat (records : List Record) (record : Record) :
    stream (records ++ [record]) = stream records ++ record.bytes := by
  rw [stream, List.flatMap_append, List.flatMap_singleton]
  rfl

/-- One more record is laid out from the end of the stream on. -/
theorem aligned_concat (offset : Nat) (records : List Record) (record : Record) :
    Aligned offset (records ++ [record]) ↔
      Aligned offset records ∧
        (offset + (stream records).length) % LogDB.sliceBufferSize + record.bytes.length ≤
          LogDB.sliceBufferSize := by
  induction records generalizing offset with
  | nil =>
      rw [List.nil_append, Aligned, Aligned, and_comm]
      rfl
  | cons first rest ih =>
      have length : offset + (stream (first :: rest)).length =
          offset + first.bytes.length + (stream rest).length := by
        rw [stream, List.flatMap_cons, List.length_append, Nat.add_assoc]
        rfl
      rw [List.cons_append, Aligned, Aligned, ih, length, and_assoc]

namespace LogDB

variable {compress decompress : List Byte → Option (List Byte)} {data : List Byte} {filled : Nat}
  {db : LogDB}

/-- What `out_buffer` holds of a slice that is compressed. -/
def Framed (compress : List Byte → Option (List Byte)) (db : LogDB) (place : Nat)
    (content : List Byte) : Prop :=
  ∃ frame, compress content = some frame ∧ (db.bufferSliceInfo place).outBufferSize = frame.length ∧
    load db.buffer (outBuffer place) frame.length = frame

/-- The slices hold the pieces of `data` that are not in the file, and the file holds the frames
of the others. -/
structure Contents (compress : List Byte → Option (List Byte)) (data : List Byte) (filled : Nat)
    (db : LogDB) : Prop where
  slices : ∀ k, db.file.length ≤ k → k < db.file.length + bufferSlice →
    (db.bufferSliceInfo (k % bufferSlice)).inpBufferIdx =
        (piece sliceBufferSize data k).length ∧
      load db.buffer (inpBuffer (k % bufferSlice)) (piece sliceBufferSize data k).length =
        piece sliceBufferSize data k
  frames : ∀ k, db.file.length ≤ k → k < filled → k < db.file.length + bufferSlice →
    db.state (k % bufferSlice) ≠ .processing →
    Framed compress db (k % bufferSlice) (piece sliceBufferSize data k)
  file : db.file.map some =
    (List.range db.file.length).map fun k => compress (piece sliceBufferSize data k)
  origin : db.originSize = BitVec.ofNat 64 data.length
  room : data.length ≤ (db.file.length + bufferSlice) * sliceBufferSize

/-- A new database holds nothing. -/
theorem init_contents (compress : List Byte → Option (List Byte)) :
    Contents compress [] 0 init where
  slices := by
    intro k _ _
    rw [Buffer.piece_eq_nil (Nat.zero_le _)]
    exact ⟨rfl, rfl⟩
  frames := nofun
  file := rfl
  origin := rfl
  room := Nat.zero_le _

/-- A frame fits its slice and decompresses to what was compressed. -/
def Decompresses (compress : List Byte → Option (List Byte))
    (decompress : List Byte → Option (List Byte)) : Prop :=
  ∀ content frame, compress content = some frame →
    frame.length ≤ sliceBufferSize ∧ decompress frame = some content

/-- The input slices are apart. -/
theorem load_inp_store_inp (buffer : Nat → Byte) {place place' offset n : Nat}
    {bytes : List Byte} (other : place ≠ place') (fits : n ≤ sliceBufferSize)
    (fits' : offset + bytes.length ≤ sliceBufferSize) :
    load (store buffer (inpBuffer place' + offset) bytes) (inpBuffer place) n =
      load buffer (inpBuffer place) n :=
  Buffer.load_store_of_ne_part (a := 0) buffer other (by omega) fits'

/-- No input slice reaches into `out_buffer`. -/
theorem load_out_store_inp (buffer : Nat → Byte) {place place' offset n : Nat}
    {bytes : List Byte} (inside : place' < bufferSlice) (fits : n ≤ sliceBufferSize)
    (fits' : offset + bytes.length ≤ sliceBufferSize) :
    load (store buffer (inpBuffer place' + offset) bytes) (outBuffer place) n =
      load buffer (outBuffer place) n :=
  Buffer.load_store_of_ne_part (a := 0) buffer (by omega) (by omega) fits'

/-- No output slice reaches into `inp_buffer`. -/
theorem load_inp_store_out (buffer : Nat → Byte) {place place' n : Nat} {bytes : List Byte}
    (inside : place < bufferSlice) (fits : n ≤ sliceBufferSize)
    (fits' : bytes.length ≤ sliceBufferSize) :
    load (store buffer (outBuffer place') bytes) (inpBuffer place) n =
      load buffer (inpBuffer place) n :=
  Buffer.load_store_of_ne_part (a := 0) (b := 0) buffer (by omega) (by omega) (by omega)

/-- The output slices are apart. -/
theorem load_out_store_out (buffer : Nat → Byte) {place place' n : Nat} {bytes : List Byte}
    (other : place ≠ place') (fits : n ≤ sliceBufferSize)
    (fits' : bytes.length ≤ sliceBufferSize) :
    load (store buffer (outBuffer place') bytes) (outBuffer place) n =
      load buffer (outBuffer place) n :=
  Buffer.load_store_of_ne_part (a := 0) (b := 0) buffer (by omega) (by omega) (by omega)

/-- A frame stays what it is as long as its size and its bytes in `out_buffer` do. It has room
in its slice, by what is assumed of the compression. -/
theorem Framed.congr (dec : Decompresses compress decompress) {db' : LogDB} {place : Nat}
    {content : List Byte} (framed : Framed compress db place content)
    (size : (db'.bufferSliceInfo place).outBufferSize = (db.bufferSliceInfo place).outBufferSize)
    (held : ∀ n, n ≤ sliceBufferSize →
      load db'.buffer (outBuffer place) n = load db.buffer (outBuffer place) n) :
    Framed compress db' place content := by
  obtain ⟨frame, ran, length, bytes⟩ := framed
  refine ⟨frame, ran, size.trans length, ?_⟩
  rw [held frame.length (dec content frame ran).1]
  exact bytes

/-- No piece is longer than a slice. -/
theorem piece_length_le (data : List Byte) (k : Nat) :
    (piece sliceBufferSize data k).length ≤ sliceBufferSize := by
  rw [Buffer.piece_length]
  exact Nat.min_le_left ..

/-! ### The producer -/

/-- A change of states alone. -/
theorem Contents.congr {filled' : Nat} {db' : LogDB} (inv : Contents compress data filled db)
    (buffer : db'.buffer = db.buffer) (file : db'.file = db.file)
    (origin : db'.originSize = db.originSize)
    (sizes : ∀ place,
      (db'.bufferSliceInfo place).inpBufferIdx = (db.bufferSliceInfo place).inpBufferIdx ∧
        (db'.bufferSliceInfo place).outBufferSize = (db.bufferSliceInfo place).outBufferSize)
    (waits : ∀ k, db.file.length ≤ k → k < filled' → k < db.file.length + bufferSlice →
      db'.state (k % bufferSlice) ≠ .processing →
      k < filled ∧ db.state (k % bufferSlice) ≠ .processing) :
    Contents compress data filled' db' where
  slices := by
    intro k low high
    rw [file] at low high
    rw [(sizes _).1, buffer]
    exact inv.slices k low high
  frames := by
    intro k low full high ready
    rw [file] at low high
    obtain ⟨full', ready'⟩ := waits k low full high ready
    rw [Framed, (sizes _).2, buffer]
    exact inv.frames k low full' high ready'
  file := by
    rw [file]
    exact inv.file
  origin := by
    rw [origin]
    exact inv.origin
  room := by
    rw [file]
    exact inv.room

/-- A full slice is handed over, and the piece after it begins. -/
theorem Contents.handOver {written dispatched : Nat} (inv : Contents compress data filled db)
    (rotates : Rotates written dispatched filled db) :
    Contents compress data (filled + 1) db.handOver := by
  have sizes (place : Nat) :
      (db.handOver.bufferSliceInfo place).inpBufferIdx =
          (db.bufferSliceInfo place).inpBufferIdx ∧
        (db.handOver.bufferSliceInfo place).outBufferSize =
          (db.bufferSliceInfo place).outBufferSize := by
    rw [handOver_info]
    by_cases own : place = db.processSlice
    · rw [own, Function.update_self]
      exact ⟨rfl, rfl⟩
    · rw [Function.update_of_ne own]
      exact ⟨rfl, rfl⟩
  refine inv.congr rfl rfl rfl sizes ?_
  intro k _ below _ ready
  rw [state, handOver_info] at ready
  by_cases own : k % bufferSlice = db.processSlice
  · rw [own, Function.update_self] at ready
    exact absurd rfl ready
  · rw [Function.update_of_ne own] at ready
    refine ⟨Nat.lt_of_le_of_ne (Nat.lt_succ_iff.1 below) ?_, ready⟩
    rintro rfl
    exact own rotates.process.symm

/-- A write that is dispatched moves no bytes. -/
theorem Contents.checkWriteback (inv : Contents compress data filled db) :
    Contents compress data filled db.checkWriteback := by
  rw [LogDB.checkWriteback]
  split
  · rename_i due
    have info (place : Nat) :
        (db.setSlice db.writebackSlice ({ · with state := .done })).bufferSliceInfo place =
          if place = db.writebackSlice then
            { db.bufferSliceInfo place with state := .done }
          else db.bufferSliceInfo place := by
      by_cases own : place = db.writebackSlice
      · rw [own, setSlice_self, if_pos rfl]
      · rw [setSlice_ne db _ own, if_neg own]
    refine inv.congr rfl rfl rfl ?_ ?_
    · intro place
      dsimp only
      rw [info]
      split <;> exact ⟨rfl, rfl⟩
    · intro k _ below _ ready
      refine ⟨below, ?_⟩
      by_cases own : k % bufferSlice = db.writebackSlice
      · rw [own, due.1]
        nofun
      · dsimp only [state] at ready
        rw [info, if_neg own] at ready
        exact ready
  · exact inv

/-- The bytes at the end of the stream are those in the slice at `process_slice`. -/
theorem Contents.inpBufferIdx {dispatched : Nat}
    (inv : Contents compress data (data.length / sliceBufferSize) db)
    (rotates : Rotates db.file.length dispatched (data.length / sliceBufferSize) db)
    (space : data.length / sliceBufferSize < db.file.length + bufferSlice) :
    (db.bufferSliceInfo db.processSlice).inpBufferIdx = data.length % sliceBufferSize := by
  have low := Nat.le_trans rotates.written_le rotates.le_filled
  have whole := Nat.div_add_mod' data.length sliceBufferSize
  have part := Nat.mod_lt data.length (show 0 < sliceBufferSize by decide)
  rw [rotates.process, (inv.slices _ low space).1, Buffer.piece_length]
  omega

/-- A record is copied behind the bytes of the slice, and the stream grows by the same bytes. -/
theorem Contents.copyRecord (dec : Decompresses compress decompress) {dispatched : Nat}
    (inv : Contents compress data (data.length / sliceBufferSize) db)
    (rotates : Rotates db.file.length dispatched (data.length / sliceBufferSize) db)
    (space : data.length / sliceBufferSize < db.file.length + bufferSlice) (record : Record)
    (fits : data.length % sliceBufferSize + record.bytes.length ≤ sliceBufferSize) :
    Contents compress (data ++ record.bytes) (data.length / sliceBufferSize)
      (db.copyRecord record) := by
  have low := Nat.le_trans rotates.written_le rotates.le_filled
  have idx := inv.inpBufferIdx rotates space
  have place := rotates.process
  have start := Nat.div_mul_le_self data.length sliceBufferSize
  have room : data.length + record.bytes.length ≤
      (data.length / sliceBufferSize + 1) * sliceBufferSize := by
    have whole := Nat.div_add_mod' data.length sliceBufferSize
    rw [Nat.succ_mul]
    omega
  have pieces (k : Nat) := Buffer.piece_append (k := k) start room
  have buffer : (db.copyRecord record).buffer =
      store db.buffer (inpBuffer db.processSlice + data.length % sliceBufferSize)
        record.bytes := by
    rw [← idx]
    rfl
  refine ⟨?_, ?_, ?_, ?_, ?_⟩
  · intro k above below
    rw [copyRecord_info, buffer, pieces k]
    -- The slice that is being filled gets the record, the others keep their bytes.
    by_cases last : k = data.length / sliceBufferSize
    · have own : k % bufferSlice = db.processSlice := by rw [last, place]
      obtain ⟨size, held⟩ := inv.slices k above below
      rw [own] at size held
      rw [if_pos last, own, Function.update_self, List.length_append, ← size, Buffer.load_add,
        ← idx, Buffer.load_store_of_disjoint _ (.inl (Nat.le_refl _)), Buffer.load_store]
      rw [← size] at held
      rw [held]
      exact ⟨rfl, rfl⟩
    · have other : k % bufferSlice ≠ db.processSlice := by
        rw [place]
        exact fun same => last (slice_injective above below low space same)
      rw [if_neg last, Function.update_of_ne other,
        load_inp_store_inp db.buffer other (piece_length_le data k) fits]
      exact inv.slices k above below
  · -- A full slice is not the one that is being filled, so its frame is still there.
    intro k above full below ready
    have other : k % bufferSlice ≠ db.processSlice := by
      rw [place]
      intro same
      exact Nat.ne_of_lt full (slice_injective above below low space same)
    rw [state, copyRecord_info, Function.update_of_ne other] at ready
    rw [pieces k, if_neg (Nat.ne_of_lt full)]
    refine (inv.frames k above full below ready).congr dec ?_ ?_
    · rw [copyRecord_info, Function.update_of_ne other]
    · intro n le
      rw [buffer]
      refine load_out_store_inp db.buffer ?_ le fits
      rw [place]
      exact mod_bufferSlice_lt _
  · refine inv.file.trans (List.map_congr_left fun k mem => ?_)
    have before : k < db.file.length := List.mem_range.1 mem
    rw [pieces k, if_neg (Nat.ne_of_lt (Nat.lt_of_lt_of_le before low))]
  · rw [List.length_append, BitVec.ofNat_add, ← inv.origin]
    rfl
  · rw [List.length_append]
    exact Nat.le_trans room (Nat.mul_le_mul_right _ space)

/-- A write that is dispatched has not reached the file yet. -/
theorem checkWriteback_file (db : LogDB) : db.checkWriteback.file = db.file := by
  rw [LogDB.checkWriteback]
  split <;> rfl

/-- The slices rotate, and hold what they should of `data`. -/
def Holds (compress : List Byte → Option (List Byte)) (data : List Byte) (db : LogDB) : Prop :=
  ∃ dispatched, Rotates db.file.length dispatched (data.length / sliceBufferSize) db ∧
    Contents compress data (data.length / sliceBufferSize) db

/-- A database that holds the stream does so when it dispatches a write. -/
theorem Holds.checkWriteback (holds : Holds compress data db) :
    Holds compress data db.checkWriteback := by
  obtain ⟨dispatched, rotates, contents⟩ := holds
  rw [Holds, checkWriteback_file]
  rcases rotates.checkWriteback with ⟨same, -⟩ | ⟨-, -, next⟩
  · rw [same]
    exact ⟨dispatched, rotates, contents⟩
  · exact ⟨dispatched + 1, next, contents.checkWriteback⟩

/-- A record that fits into the slice is appended to the stream. -/
theorem Holds.append (dec : Decompresses compress decompress) (holds : Holds compress data db)
    (free : db.state db.processSlice = .free) (record : Record)
    (fits : data.length % sliceBufferSize + record.bytes.length ≤ sliceBufferSize) :
    Holds compress (data ++ record.bytes) (db.append record) := by
  obtain ⟨dispatched, rotates, contents⟩ := holds
  have space := rotates.free_iff.1 free
  have rotates' := rotates.copyRecord space record
  have contents' := contents.copyRecord dec rotates space record fits
  have whole := Nat.div_add_mod' data.length sliceBufferSize
  have idx : ((db.copyRecord record).bufferSliceInfo
      (db.copyRecord record).processSlice).inpBufferIdx =
      data.length % sliceBufferSize + record.bytes.length := by
    have place : (db.copyRecord record).processSlice = db.processSlice := rfl
    rw [copyRecord_info, place, Function.update_self]
    dsimp only
    rw [contents.inpBufferIdx rotates space]
  rw [LogDB.append]
  refine Holds.checkWriteback ?_
  rw [rotates'.finishSlice_checkCompress, idx]
  split
  · rename_i full
    have next : (data ++ record.bytes).length / sliceBufferSize =
        data.length / sliceBufferSize + 1 := by
      rw [List.length_append]
      refine Nat.div_eq_of_lt_le ?_ ?_ <;> rw [Nat.succ_mul]
      · omega
      · rw [Nat.succ_mul]
        have := show 0 < sliceBufferSize by decide
        omega
    rw [Holds, next]
    exact ⟨dispatched, rotates'.handOver space, contents'.handOver rotates'⟩
  · rename_i part
    have next : (data ++ record.bytes).length / sliceBufferSize =
        data.length / sliceBufferSize := by
      rw [List.length_append]
      refine Nat.div_eq_of_lt_le ?_ ?_
      · omega
      · rw [Nat.succ_mul]
        omega
    rw [Holds, next]
    exact ⟨dispatched, rotates', contents'⟩

/-! ### The tasks -/

/-- A task of the pool compresses the piece that its slice holds, into the output slice of the
same number. -/
theorem Contents.compressed (dec : Decompresses compress decompress) {dispatched : Nat}
    (inv : Contents compress data filled db)
    (rotates : Rotates db.file.length dispatched filled db) {slice size : Nat}
    (mem : .compress slice size ∈ db.pool) {frame : List Byte}
    (ran : compress (load db.buffer (inpBuffer slice) size) = some frame) :
    Contents compress data filled
      { db with
        bufferSliceInfo := Function.update db.bufferSliceInfo slice
          { db.bufferSliceInfo slice with outBufferSize := frame.length, state := .processDone }
        buffer := store db.buffer (outBuffer slice) frame
        pool := db.pool.erase (.compress slice size) } := by
  obtain ⟨k₀, low, high, rfl, -, rfl⟩ := rotates.compress_mem mem
  have above₀ := Nat.le_trans rotates.written_le low
  have below₀ := Nat.lt_of_lt_of_le high rotates.filled_le
  obtain ⟨size, held⟩ := inv.slices k₀ above₀ below₀
  rw [size, held] at ran
  have fits := (dec _ _ ran).1
  refine ⟨?_, ?_, inv.file, inv.origin, inv.room⟩
  · intro k above below
    dsimp only
    rw [load_inp_store_out db.buffer (mod_bufferSlice_lt k) (piece_length_le data k) fits]
    refine ⟨?_, (inv.slices k above below).2⟩
    by_cases own : k % bufferSlice = k₀ % bufferSlice
    · rw [own, Function.update_self, ← own]
      exact (inv.slices k above below).1
    · rw [Function.update_of_ne own]
      exact (inv.slices k above below).1
  · intro k above full below ready
    by_cases own : k = k₀
    · subst own
      refine ⟨frame, ran, ?_, Buffer.load_store ..⟩
      dsimp only
      rw [Function.update_self]
    · have other : k % bufferSlice ≠ k₀ % bufferSlice :=
        fun same => own (slice_injective above below above₀ below₀ same)
      dsimp only [state] at ready
      rw [Function.update_of_ne other] at ready
      refine (inv.frames k above full below ready).congr dec ?_ ?_
      · dsimp only
        rw [Function.update_of_ne other]
      · intro n le
        exact load_out_store_out db.buffer other le fits

/-- A task of the pool writes the frame of the next piece to the end of the file. -/
theorem Contents.wrote {dispatched : Nat} (inv : Contents compress data filled db)
    (rotates : Rotates db.file.length dispatched filled db) {slice size : Nat}
    (mem : .write slice size ∈ db.pool) :
    Contents compress data filled
      { db with
        bufferSliceInfo := Function.update db.bufferSliceInfo slice ⟨.free, 0, 0⟩
        file := db.file ++ [load db.buffer (outBuffer slice) size]
        isWriting := false
        pool := db.pool.erase (.write slice size) } := by
  obtain ⟨next, rfl, done, rfl⟩ := rotates.write_mem mem
  have below : db.file.length < db.file.length + bufferSlice :=
    Nat.lt_add_of_pos_right (by decide)
  have full : db.file.length < filled := by
    have := rotates.le_filled
    omega
  obtain ⟨frame, ran, length, held⟩ :=
    inv.frames db.file.length (Nat.le_refl _) full below (by rw [done]; nofun)
  have grown : (db.file ++ [load db.buffer (outBuffer (db.file.length % bufferSlice))
      (db.bufferSliceInfo (db.file.length % bufferSlice)).outBufferSize]).length =
      db.file.length + 1 := by
    rw [List.length_append, List.length_singleton]
  -- The other slices of the ring are not the one that is freed.
  have apart (k : Nat) (above : db.file.length + 1 ≤ k)
      (before : k < db.file.length + bufferSlice) :
      k % bufferSlice ≠ db.file.length % bufferSlice := by
    intro same
    have := slice_injective (Nat.le_of_succ_le above) before (Nat.le_refl _) below same
    omega
  refine ⟨?_, ?_, ?_, inv.origin, ?_⟩
  · -- the slice that was written is the last of the ring now, and holds nothing
    dsimp only
    rw [grown]
    intro k above below
    by_cases last : k = db.file.length + bufferSlice
    · rw [last, Nat.add_mod_right, Function.update_self, Buffer.piece_eq_nil inv.room]
      exact ⟨rfl, rfl⟩
    · have before : k < db.file.length + bufferSlice := by omega
      rw [Function.update_of_ne (apart k above before)]
      exact inv.slices k (Nat.le_of_succ_le above) before
  · dsimp only
    rw [grown]
    intro k above full below ready
    have before : k < db.file.length + bufferSlice := Nat.lt_of_lt_of_le full rotates.filled_le
    have other := apart k above before
    dsimp only [state] at ready
    rw [Function.update_of_ne other] at ready
    rw [Framed]
    dsimp only
    rw [Function.update_of_ne other]
    exact inv.frames k (Nat.le_of_succ_le above) full before ready
  · dsimp only
    rw [grown, List.range_succ, List.map_append, List.map_append, inv.file, List.map_singleton,
      List.map_singleton, ran, length, held]
  · dsimp only
    rw [grown]
    exact Nat.le_trans inv.room (Nat.mul_le_mul_right _ (by omega))

/-! ### Closing -/

/-- What is left to write are the pieces from `written` to `last`, all compressed. -/
structure Drained (compress : List Byte → Option (List Byte)) (data : List Byte)
    (written last : Nat) (db : LogDB) : Prop where
  writeback : db.writebackSlice = written % bufferSlice
  compressed : ∀ k, written ≤ k → k < last → db.state (k % bufferSlice) = .processDone ∧
    Framed compress db (k % bufferSlice) (piece sliceBufferSize data k)
  rest : ∀ k, last ≤ k → k < written + bufferSlice → db.state (k % bufferSlice) ≠ .processDone
  file : db.file.map some =
    (List.range written).map fun k => compress (piece sliceBufferSize data k)
  le_last : written ≤ last
  last_le : last ≤ written + bufferSlice

/-- One turn of the second loop of `close`. -/
theorem Drained.turn {written last : Nat} (inv : Drained compress data written last db)
    (more : written < last) :
    Drained compress data (written + 1) last
      { (db.writeFile db.writebackSlice
          (db.bufferSliceInfo db.writebackSlice).outBufferSize).setSlice db.writebackSlice
            ({ · with state := .free }) with
        writebackSlice := (db.writebackSlice + 1) % bufferSlice } := by
  have first : written < written + bufferSlice := Nat.lt_add_of_pos_right (by decide)
  have apart (k : Nat) (above : written + 1 ≤ k) (before : k < written + bufferSlice) :
      k % bufferSlice ≠ written % bufferSlice := by
    intro same
    have := slice_injective (Nat.le_of_succ_le above) before (Nat.le_refl _) first same
    omega
  obtain ⟨-, frame, ran, length, held⟩ := inv.compressed written (Nat.le_refl _) more
  refine ⟨?_, ?_, ?_, ?_, more, Nat.le_succ_of_le inv.last_le⟩
  · dsimp only
    rw [inv.writeback, Nat.mod_add_mod]
  · intro k above below
    dsimp only [Framed, state, setSlice, writeFile]
    rw [inv.writeback,
      Function.update_of_ne (apart k above (Nat.lt_of_lt_of_le below inv.last_le))]
    exact inv.compressed k (Nat.le_of_succ_le above) below
  · intro k above below
    dsimp only [state, setSlice, writeFile]
    rw [inv.writeback]
    by_cases place : k % bufferSlice = written % bufferSlice
    · rw [place, Function.update_self]
      nofun
    · rw [Function.update_of_ne place]
      refine inv.rest k above (Nat.lt_of_le_of_ne (by omega) ?_)
      rintro rfl
      exact place (Nat.add_mod_right ..)
  · dsimp only [setSlice, writeFile]
    rw [inv.writeback, length, held, List.map_append, inv.file, List.range_succ,
      List.map_append, List.map_singleton, List.map_singleton, ran]

/-- The second loop of `close` writes what is left. -/
theorem Drained.closeWriteback {written last : Nat}
    (inv : Drained compress data written last db) (turns : Nat) (enough : last ≤ written + turns) :
    (db.closeWriteback turns).file.map some =
        ((List.range last).map fun k => compress (piece sliceBufferSize data k)) ∧
      (db.closeWriteback turns).metaOriginSize = db.metaOriginSize := by
  induction turns generalizing written db with
  | zero =>
      have same : last = written := Nat.le_antisymm enough inv.le_last
      rw [LogDB.closeWriteback, same]
      exact ⟨inv.file, rfl⟩
  | succ turns ih =>
      rw [LogDB.closeWriteback]
      split
      · rename_i ready
        rw [inv.writeback] at ready
        have more : written < last := by
          by_contra none
          exact inv.rest written (Nat.not_lt.1 none) (Nat.lt_add_of_pos_right (by decide)) ready
        exact ih (inv.turn more) (by omega)
      · rename_i idle
        rw [inv.writeback] at idle
        have same : last = written := by
          refine Nat.le_antisymm ?_ inv.le_last
          by_contra more
          exact idle (inv.compressed written (Nat.le_refl _) (Nat.not_le.1 more)).1
        rw [same]
        exact ⟨inv.file, rfl⟩

/-- When the pool is empty, every full slice is compressed and none is being written. -/
theorem Rotates.settled {written dispatched : Nat} (rotates : Rotates written dispatched filled db)
    (settled : db.pool = []) :
    dispatched = written ∧
      ∀ k, written ≤ k → k < filled → db.state (k % bufferSlice) = .processDone := by
  have compressed (k : Nat) (low : written ≤ k) (full : k < filled) :
      db.state (k % bufferSlice) = .processDone := by
    by_contra waits
    exact rotates.pool_ne_nil low full waits settled
  refine ⟨?_, compressed⟩
  have := rotates.written_le
  have := rotates.le_filled
  by_contra other
  have done := compressed written (Nat.le_refl _) (by omega)
  have phase : Phase dispatched filled written (db.state (written % bufferSlice)) :=
    rotates.slices written (Nat.le_refl _) (Nat.lt_add_of_pos_right (by decide))
  rw [done] at phase
  have : dispatched ≤ written := phase.1
  omega

/-- The first loop of `close` stops at a slice that is not ready. -/
theorem closeCompress_stop (compress : List Byte → Option (List Byte)) (turns : Nat)
    (idle : db.state db.compressSlice ≠ .processReady) :
    db.closeCompress compress turns = .ok db := by
  cases turns with
  | zero => rfl
  | succ turns => rw [closeCompress, if_neg idle]

/-- The database after `close` has compressed the slice at `process_slice`. -/
def compressedSlice (frame : List Byte) (db : LogDB) : LogDB :=
  { db with
    bufferSliceInfo := Function.update db.bufferSliceInfo db.processSlice
      { db.bufferSliceInfo db.processSlice with
        outBufferSize := frame.length, state := .processDone }
    buffer := store db.buffer (outBuffer db.processSlice) frame
    compressSlice := (db.processSlice + 1) % bufferSlice
    metaOriginSize := db.originSize }

/-- The first loop of `close` compresses the slice at `process_slice`, if it holds anything. -/
theorem Rotates.closeCompress {written dispatched : Nat} {db' : LogDB}
    (rotates : Rotates written dispatched filled db)
    (ran : db.closeSlice.closeCompress compress bufferSlice = .ok db') :
    (db.bufferSliceInfo db.processSlice).inpBufferIdx = 0 ∧
        db' = { db with metaOriginSize := db.originSize } ∨
      ∃ frame,
        compress (load db.buffer (inpBuffer db.processSlice)
          (db.bufferSliceInfo db.processSlice).inpBufferIdx) = some frame ∧
        db' = db.compressedSlice frame := by
  have cursor : db.compressSlice = db.processSlice := by rw [rotates.compress, rotates.process]
  rw [closeSlice] at ran
  dsimp only at ran
  split at ran
  · refine .inr ?_
    obtain ⟨buffer, info, process, compressSlice⟩ := db
    dsimp only at cursor
    subst cursor
    change LogDB.closeCompress compress (3 + 1) _ = _ at ran
    rw [LogDB.closeCompress, if_pos (by exact congrArg BufferSlice.state (setSlice_self ..))]
      at ran
    obtain ⟨mid, into, ran⟩ := (bind_eq_ok ..).1 ran
    rw [compressInto] at into
    dsimp only [setSlice] at into
    rw [Function.update_self] at into
    split at into
    · cases into
    rename_i frame framed
    cases into
    refine ⟨frame, framed, ?_⟩
    rw [closeCompress_stop] at ran
    · cases ran
      dsimp only [compressedSlice, setSlice]
      rw [Function.update_idem]
    · have inside : compressSlice < bufferSlice := by
        rw [show compressSlice = filled % bufferSlice from rotates.process]
        exact mod_bufferSlice_lt filled
      -- The loop ends with the next slice, which is not filled.
      have next : (compressSlice + 1) % bufferSlice ≠ compressSlice := by
        rw [bufferSlice] at inside ⊢
        omega
      dsimp only [state, setSlice]
      rw [Function.update_of_ne next, Function.update_of_ne next]
      exact rotates.not_ready (mod_bufferSlice_lt _)
  · rename_i empty
    -- An empty slice is not compressed.
    refine .inl ⟨Decidable.not_not.1 empty, ?_⟩
    rw [closeCompress_stop] at ran
    · cases ran
      rfl
    · rw [rotates.compress]
      exact rotates.not_ready (mod_bufferSlice_lt filled)

/-- The piece that the first loop of `close` compresses, and the end of those to write: the piece
at the end of the stream or, if the ring is full, the next one to write, which is compressed
again. -/
structure LastPiece (data : List Byte) (db : LogDB) (own last : Nat) : Prop where
  place : own % bufferSlice = db.processSlice
  above : db.file.length ≤ own
  below : own < db.file.length + bufferSlice
  lt_last : own < last
  last_le : last ≤ db.file.length + bufferSlice
  length : data.length ≤ last * sliceBufferSize
  others : ∀ k, k ≠ own → k < last → k < data.length / sliceBufferSize
  filled : data.length / sliceBufferSize ≤ last

section CloseCompress

variable (inv : Contents compress data (data.length / sliceBufferSize) db)
variable (rotates : Rotates db.file.length db.file.length (data.length / sliceBufferSize) db)

include inv rotates

/-- There is such a piece. -/
theorem Contents.exists_lastPiece : ∃ own last, LastPiece data db own last := by
  have low := rotates.le_filled
  have high := rotates.filled_le
  by_cases space : data.length / sliceBufferSize < db.file.length + bufferSlice
  · have whole := Nat.div_add_mod' data.length sliceBufferSize
    have part := Nat.mod_lt data.length (show 0 < sliceBufferSize by decide)
    refine ⟨_, data.length / sliceBufferSize + 1, rotates.process.symm, low, space,
      Nat.lt_succ_self _, space, ?_, ?_, Nat.le_succ _⟩
    · rw [Nat.succ_mul]
      omega
    · intro k other below
      omega
  · -- the ring is full, so that `process_slice` is back at the first piece to write
    have full := Nat.le_antisymm high (Nat.not_lt.1 space)
    have first : db.file.length < db.file.length + bufferSlice :=
      Nat.lt_add_of_pos_right (by decide)
    refine ⟨db.file.length, data.length / sliceBufferSize, ?_, Nat.le_refl _, first, ?_,
      high, ?_, fun k _ below => below, Nat.le_refl _⟩
    · rw [rotates.process, full, Nat.add_mod_right]
    · rw [full]
      exact first
    · rw [full]
      exact inv.room

variable (compressed : ∀ k, db.file.length ≤ k → k < data.length / sliceBufferSize →
  db.state (k % bufferSlice) = .processDone)

omit rotates in
include compressed in
/-- A piece before the end of the stream is compressed, and its frame is there. -/
theorem Contents.framed {k : Nat} (above : db.file.length ≤ k)
    (full : k < data.length / sliceBufferSize) (below : k < db.file.length + bufferSlice) :
    db.state (k % bufferSlice) = .processDone ∧
      Framed compress db (k % bufferSlice) (piece sliceBufferSize data k) := by
  have ready := compressed k above full
  refine ⟨ready, inv.frames k above full below ?_⟩
  rw [ready]
  rintro ⟨⟩

omit inv in
/-- A slice from the end of the stream on is not compressed. -/
theorem Rotates.not_done {k : Nat} (above : data.length / sliceBufferSize ≤ k)
    (below : k < db.file.length + bufferSlice) : db.state (k % bufferSlice) ≠ .processDone := by
  intro done
  have phase : Phase db.file.length (data.length / sliceBufferSize) k
      (db.state (k % bufferSlice)) := rotates.slices k (Nat.le_trans rotates.le_filled above) below
  rw [done] at phase
  exact Nat.not_lt.2 above phase.2

include compressed

/-- With nothing in the slice at `process_slice`, all of the stream is compressed already. -/
theorem Contents.drained_of_empty
    (empty : (db.bufferSliceInfo db.processSlice).inpBufferIdx = 0) :
    Drained compress data db.file.length (data.length / sliceBufferSize)
        { db with metaOriginSize := db.originSize } ∧
      data.length ≤ data.length / sliceBufferSize * sliceBufferSize := by
  have low := rotates.le_filled
  have high := rotates.filled_le
  refine ⟨⟨rotates.writeback,
    fun k above full => inv.framed compressed above full (Nat.lt_of_lt_of_le full high),
    fun k above below => rotates.not_done above below, inv.file, low, high⟩, ?_⟩
  by_cases space : data.length / sliceBufferSize < db.file.length + bufferSlice
  · have whole := Nat.div_add_mod' data.length sliceBufferSize
    rw [inv.inpBufferIdx rotates space] at empty
    omega
  · rw [Nat.le_antisymm high (Nat.not_lt.1 space)]
    exact inv.room

/-- With the slice at `process_slice` compressed, all that is left is compressed. -/
theorem Contents.drained_of_frame (dec : Decompresses compress decompress) {own last : Nat}
    (lastPiece : LastPiece data db own last) {frame : List Byte}
    (framed : compress (load db.buffer (inpBuffer db.processSlice)
      (db.bufferSliceInfo db.processSlice).inpBufferIdx) = some frame) :
    Drained compress data db.file.length last (db.compressedSlice frame) := by
  obtain ⟨size, held⟩ := inv.slices own lastPiece.above lastPiece.below
  rw [lastPiece.place] at size held
  rw [size, held] at framed
  have fits := (dec _ _ framed).1
  have other {k : Nat} (above : db.file.length ≤ k) (below : k < db.file.length + bufferSlice)
      (ne : k ≠ own) : k % bufferSlice ≠ db.processSlice := by
    rw [← lastPiece.place]
    exact fun same => ne (slice_injective above below lastPiece.above lastPiece.below same)
  have low := Nat.le_trans lastPiece.above (Nat.le_of_lt lastPiece.lt_last)
  refine ⟨rotates.writeback, ?_, ?_, inv.file, low, lastPiece.last_le⟩
  · intro k above below
    by_cases isOwn : k = own
    · rw [isOwn, lastPiece.place]
      dsimp only [state, compressedSlice, Framed]
      rw [Function.update_self]
      exact ⟨rfl, frame, framed, rfl, Buffer.load_store ..⟩
    · have inside := Nat.lt_of_lt_of_le below lastPiece.last_le
      have apart := other above inside isOwn
      obtain ⟨ready, done⟩ := inv.framed compressed above (lastPiece.others k isOwn below) inside
      refine ⟨?_, done.congr dec ?_ ?_⟩
      · dsimp only [state, compressedSlice]
        rw [Function.update_of_ne apart]
        exact ready
      · dsimp only [compressedSlice]
        rw [Function.update_of_ne apart]
      · intro n le
        exact load_out_store_out db.buffer apart le fits
  · intro k above below
    have apart := other (Nat.le_trans low above) below
      (Nat.ne_of_gt (Nat.lt_of_lt_of_le lastPiece.lt_last above))
    dsimp only [state, compressedSlice]
    rw [Function.update_of_ne apart]
    exact rotates.not_done (Nat.le_trans lastPiece.filled above) below

end CloseCompress

/-- The first loop of `close` leaves the pieces that are to be written compressed, and the size
of the stream in the header. -/
theorem Contents.closeCompress (dec : Decompresses compress decompress) {db' : LogDB}
    (inv : Contents compress data (data.length / sliceBufferSize) db)
    (rotates : Rotates db.file.length db.file.length (data.length / sliceBufferSize) db)
    (compressed : ∀ k, db.file.length ≤ k → k < data.length / sliceBufferSize →
      db.state (k % bufferSlice) = .processDone)
    (ran : db.closeSlice.closeCompress compress bufferSlice = .ok db') :
    ∃ last, Drained compress data db.file.length last db' ∧
      data.length ≤ last * sliceBufferSize ∧ db'.metaOriginSize = db.originSize := by
  rcases rotates.closeCompress ran with ⟨empty, rfl⟩ | ⟨frame, framed, rfl⟩
  · obtain ⟨drained, length⟩ := inv.drained_of_empty rotates compressed empty
    exact ⟨data.length / sliceBufferSize, drained, length, rfl⟩
  · obtain ⟨own, last, lastPiece⟩ := inv.exists_lastPiece rotates
    exact ⟨last, inv.drained_of_frame rotates compressed dec lastPiece framed, lastPiece.length,
      rfl⟩

/-- What `close` leaves: every piece in the file, and its size in the header. -/
theorem Contents.close (dec : Decompresses compress decompress) {dispatched : Nat} {db' : LogDB}
    (inv : Contents compress data (data.length / sliceBufferSize) db)
    (rotates : Rotates db.file.length dispatched (data.length / sliceBufferSize) db)
    (settled : db.pool = []) (ran : db.close compress = .ok db') :
    ∃ last, db'.file.map some =
        ((List.range last).map fun k => compress (piece sliceBufferSize data k)) ∧
      data.length ≤ last * sliceBufferSize ∧
      db'.metaOriginSize = BitVec.ofNat 64 data.length := by
  obtain ⟨rfl, compressed⟩ := rotates.settled settled
  rw [LogDB.close] at ran
  obtain ⟨mid, first, ran⟩ := (bind_eq_ok ..).1 ran
  cases ran
  obtain ⟨last, drained, length, header⟩ := inv.closeCompress dec rotates compressed first
  obtain ⟨file, kept⟩ := drained.closeWriteback bufferSlice drained.last_le
  refine ⟨last, file, length, ?_⟩
  rw [kept, header, inv.origin]

end LogDB

/-! ### Runs -/

/-- The arguments of the calls of `addData`. -/
def records : List LogStep → List Record :=
  List.filterMap fun
    | .addData record => some record
    | .wake | .finish _ | .close => none

namespace LogRun

open LogDB (Contents Decompresses Holds sliceBufferSize)

/-- What was added is what was written, if the database is closed, and no copy has left its
slice. -/
structure WritesBack (decompress : List Byte → Option (List Byte)) (s : LogRun) : Prop where
  within : ∀ copy ∈ s.copies, copy.1 + copy.2 ≤ sliceBufferSize
  contents : s.closed = true →
    (s.db.file.mapM decompress).map List.flatten = some (stream s.added)
  size : s.closed = true → s.db.metaOriginSize.toNat = (stream s.added).length

/-- The records copied are those of the calls, but for one that waits. -/
theorem added_eq {compress : List Byte → Option (List Byte)} {s s' : LogRun}
    {steps : List LogStep} (ran : runSteps (step compress) s steps = .ok s') :
    s'.added ++ s'.waiting.toList = s.added ++ s.waiting.toList ++ records steps := by
  induction steps generalizing s with
  | nil =>
      cases ran
      exact (List.append_nil _).symm
  | cons j steps ih =>
      rw [runSteps_cons, bind_eq_ok] at ran
      obtain ⟨mid, moved, ran⟩ := ran
      rw [ih ran]
      cases step_moves moved with
      | added record idle opened free =>
          rw [idle]
          simp [records, copied]
      | blocked record idle opened held =>
          rw [idle]
          simp [records]
      | resumed record waits db checked free =>
          rw [waits]
          simp [records, copied]
      | stays record waits db checked held =>
          rw [waits]
          simp [records]
      | compressed slice size mem frame result => simp [records]
      | wrote slice size mem => simp [records]
      | closes idle opened settled db result => simp [records]

section

variable {compress decompress : List Byte → Option (List Byte)} {s s' : LogRun} {j : LogStep}

/-- Frames of contents decompress to the contents. -/
theorem mapM_decompress (dec : Decompresses compress decompress) {file contents : List (List Byte)}
    (frames : file.map some = contents.map compress) : file.mapM decompress = some contents := by
  induction file generalizing contents with
  | nil =>
      rw [List.map_nil, eq_comm, List.map_eq_nil_iff] at frames
      rw [frames]
      rfl
  | cons frame file ih =>
      cases contents with
      | nil => cases frames
      | cons content contents =>
          rw [List.map_cons, List.map_cons, List.cons.injEq] at frames
          rw [List.mapM_cons, (dec content frame frames.1.symm).2, ih frames.2]
          rfl

/-- The state of a run in which no record has crossed the end of its slice. -/
structure Sound (compress decompress : List Byte → Option (List Byte)) (s : LogRun) : Prop where
  within : ∀ copy ∈ s.copies, copy.1 + copy.2 ≤ sliceBufferSize
  aligned : Aligned 0 s.added
  holds : s.closed = false → Holds compress (stream s.added) s.db
  written : s.closed = true →
    (s.db.file.mapM decompress).map List.flatten = some (stream s.added) ∧
      s.db.metaOriginSize = BitVec.ofNat 64 (stream s.added).length

/-- A record has crossed the end of its slice. -/
structure Crossed (s : LogRun) : Prop where
  outside : ∃ copy ∈ s.copies, ¬ copy.1 + copy.2 ≤ sliceBufferSize
  unaligned : ¬ Aligned 0 s.added

/-- Nothing has been added. -/
theorem start_sound (compress decompress : List Byte → Option (List Byte)) :
    start.Sound compress decompress :=
  ⟨nofun, trivial, fun _ => ⟨0, LogDB.init_rotates, LogDB.init_contents compress⟩, nofun⟩

/-- Whether a record crosses is seen from where it begins in the stream. -/
theorem Sound.copied (dec : Decompresses compress decompress) (inv : s.Sound compress decompress)
    (opened : s.closed = false) (free : s.db.state s.db.processSlice = .free) (record : Record) :
    (s.copied record).Sound compress decompress ∨ (s.copied record).Crossed := by
  obtain ⟨dispatched, rotates, contents⟩ := inv.holds opened
  have idx := contents.inpBufferIdx rotates (rotates.free_iff.1 free)
  have aligned := aligned_concat 0 s.added record
  rw [Nat.zero_add, ← idx] at aligned
  by_cases fits : (s.db.bufferSliceInfo s.db.processSlice).inpBufferIdx + record.bytes.length ≤
      sliceBufferSize
  · refine .inl ⟨?_, aligned.2 ⟨inv.aligned, fits⟩, fun _ => ?_, fun closed => ?_⟩
    · intro copy mem
      rcases List.mem_append.1 mem with old | new
      · exact inv.within copy old
      · rw [List.mem_singleton.1 new]
        exact fits
    · rw [idx] at fits
      change Holds compress (stream (s.added ++ [record])) _
      rw [stream_concat]
      exact LogDB.Holds.append dec ⟨dispatched, rotates, contents⟩ free record fits
    · change s.closed = true at closed
      rw [opened] at closed
      cases closed
  · refine .inr ⟨⟨_, List.mem_append_right _ (List.mem_singleton_self _), fits⟩, ?_⟩
    exact fun all => fits (aligned.1 all).2

/-- A record that has left its slice stays on record. -/
theorem Crossed.copied (crossed : s.Crossed) (record : Record) : (s.copied record).Crossed := by
  obtain ⟨copy, mem, outside⟩ := crossed.outside
  refine ⟨⟨copy, List.mem_append_left _ mem, outside⟩, fun all => crossed.unaligned ?_⟩
  exact ((aligned_concat 0 s.added record).1 all).1

/-- So it does whatever happens then. -/
theorem Crossed.moves (crossed : s.Crossed) (moved : s.Moves compress j s') : s'.Crossed := by
  cases moved with
  | added record idle opened free => exact crossed.copied record
  | blocked record idle opened held => exact ⟨crossed.outside, crossed.unaligned⟩
  | resumed record waits db checked free =>
      exact Crossed.copied (s := { s with db := db })
        ⟨crossed.outside, crossed.unaligned⟩ record
  | stays record waits db checked held => exact ⟨crossed.outside, crossed.unaligned⟩
  | compressed slice size mem frame ran => exact ⟨crossed.outside, crossed.unaligned⟩
  | wrote slice size mem => exact ⟨crossed.outside, crossed.unaligned⟩
  | closes idle opened settled db ran => exact ⟨crossed.outside, crossed.unaligned⟩

/-- A step keeps the invariant, or it copies a record past the end of its slice. -/
theorem Sound.moves (dec : Decompresses compress decompress) (inv : s.Sound compress decompress)
    (turning : s.Turning) (moved : s.Moves compress j s') :
    s'.Sound compress decompress ∨ s'.Crossed := by
  -- nothing but a copy changes what has been added
  have kept {db : LogDB} {waiting : Option Record} {notified : Bool} (opened : s.closed = false)
      (holds : Holds compress (stream s.added) db) :
      Sound compress decompress
        { s with db := db, waiting := waiting, notified := notified } := by
    refine ⟨inv.within, inv.aligned, fun _ => holds, fun closed => ?_⟩
    change s.closed = true at closed
    rw [opened] at closed
    cases closed
  have checkHolds {db : LogDB} (opened : s.closed = false)
      (checked : db = s.db.checkCompress.checkWriteback) :
      Holds compress (stream s.added) db := by
    obtain ⟨dispatched, rotates, contents⟩ := inv.holds opened
    rw [rotates.checkCompress] at checked
    rw [checked]
    exact LogDB.Holds.checkWriteback ⟨dispatched, rotates, contents⟩
  cases moved with
  | added record idle opened free => exact inv.copied dec opened free record
  | blocked record idle opened held => exact .inl (kept opened (inv.holds opened))
  | resumed record waits db checked free =>
      have opened := turning.opened waits
      exact (kept opened (checkHolds opened checked)).copied dec opened free record
  | stays record waits db checked held =>
      have opened := turning.opened waits
      exact .inl (kept opened (checkHolds opened checked))
  | compressed slice size mem frame ran =>
      have opened := turning.opened_of_mem mem
      obtain ⟨dispatched, rotates, contents⟩ := inv.holds opened
      refine .inl (kept opened ⟨dispatched, rotates.compressed mem _ rfl _, ?_⟩)
      exact contents.compressed dec rotates mem ran
  | wrote slice size mem =>
      have opened := turning.opened_of_mem mem
      obtain ⟨dispatched, rotates, contents⟩ := inv.holds opened
      refine .inl (kept opened ⟨dispatched, ?_, contents.wrote rotates mem⟩)
      dsimp only
      rw [List.length_append]
      exact rotates.wrote mem _
  | closes idle opened settled db ran =>
      obtain ⟨dispatched, rotates, contents⟩ := inv.holds opened
      obtain ⟨last, file, length, header⟩ := contents.close dec rotates settled ran
      refine .inl ⟨inv.within, inv.aligned, nofun, fun _ => ⟨?_, header⟩⟩
      have frames : db.file.map some =
          ((List.range last).map (piece sliceBufferSize (stream s.added))).map compress := by
        rw [file, List.map_map]
        rfl
      dsimp only
      rw [mapM_decompress dec frames, Option.map_some, Buffer.flatten_pieces,
        List.take_of_length_le length]

/-- At the end of every run, the log is written back and every copy has stayed in its slice
exactly if no record crosses a multiple of `SLICE_BUFFER_SIZE` in the stream and the size of the
stream is a 64-bit number. `addData` hands a slice on when it is full, and looks at that only
after the copy. The frames in the file are those of the pieces of the stream, in order
(`Contents`). -/
theorem writesBack_iff_aligned (compress decompress : List Byte → Option (List Byte))
    (dec : Decompresses compress decompress) (steps : List LogStep) :
    Returns (runSteps (step compress) start steps) fun s =>
      s.added ++ s.waiting.toList = records steps ∧
      (s.WritesBack decompress ↔
        Aligned 0 s.added ∧ (s.closed = true → (stream s.added).length < 2 ^ 64)) := by
  have kept : Returns (runSteps (step compress) start steps)
      fun s => s.Turning ∧ (s.Sound compress decompress ∨ s.Crossed) := by
    refine runSteps_invariant ?_ ⟨start_turning, .inl (start_sound compress decompress)⟩ steps
    rintro s j ⟨turning, inv⟩ s' moved
    have moves := step_moves moved
    refine ⟨turning.moves moves, ?_⟩
    rcases inv with sound | crossed
    · exact sound.moves dec turning moves
    · exact .inr (crossed.moves moves)
  intro s ran
  refine ⟨?_, ?_⟩
  · have all := added_eq ran
    exact all
  rcases (kept s ran).2 with sound | crossed
  · constructor
    · intro writes
      refine ⟨sound.aligned, fun closed => ?_⟩
      rw [← writes.size closed]
      exact s.db.metaOriginSize.isLt
    · rintro ⟨-, small⟩
      refine ⟨sound.within, fun closed => (sound.written closed).1, fun closed => ?_⟩
      rw [(sound.written closed).2, BitVec.toNat_ofNat, Nat.mod_eq_of_lt (small closed)]
  · obtain ⟨copy, mem, outside⟩ := crossed.outside
    refine iff_of_false (fun writes => outside (writes.within copy mem)) ?_
    exact fun all => crossed.unaligned all.1

end

/-- A compressor that stores what it is given, if it fits. -/
def stored (content : List Byte) : Option (List Byte) :=
  if content.length ≤ sliceBufferSize then some content else none

/-- Storing the bytes as they are is a compression that can be undone. -/
theorem stored_decompresses : Decompresses stored some := by
  intro content frame ran
  rw [stored] at ran
  split at ran
  · rename_i fits
    cases ran
    exact ⟨fits, rfl⟩
  · cases ran

/-- A record of two bytes. -/
def shortRecord : Record where
  bytes := [1, 2]
  fits := by decide

/-- One short record, written when the database is closed. -/
theorem writesBack_iff_aligned_shortRecord :
    (runSteps (step stored) start [.addData shortRecord, .close]).toOption.isSome = true ∧
      Returns (runSteps (step stored) start [.addData shortRecord, .close]) fun s =>
        s.added ++ s.waiting.toList = records [.addData shortRecord, .close] ∧
        (s.WritesBack some ↔
          Aligned 0 s.added ∧ (s.closed = true → (stream s.added).length < 2 ^ 64)) :=
  ⟨by decide +kernel, writesBack_iff_aligned stored some stored_decompresses _⟩

/-- A record of 1000 bytes. -/
def longRecord : Record where
  bytes := List.replicate 1000 0
  fits := by
    rw [List.length_replicate]
    decide

/-- The last of these records begins 632 bytes before the end of the slice. -/
def crossingSteps : List LogStep :=
  List.replicate 8389 (.addData longRecord) ++ [.addData longRecord]

/-- Its copy goes 368 bytes into the next slice. -/
theorem not_writesBack_crossingSteps :
    ¬ Returns (runSteps (step stored) start crossingSteps) (WritesBack some) := by
  intro all
  have length : longRecord.bytes.length = 1000 := List.length_replicate
  obtain ⟨s, ran, filling⟩ := start_filling.addMany stored (by decide) longRecord
    8389 (by rw [length]; decide)
  have place : s.db.processSlice = 0 := filling.rotates.process
  have current := filling.current (by decide)
  have free : s.db.state s.db.processSlice = .free := by
    rw [place, LogDB.state, current]
  have moved : step stored s (.addData longRecord) = .ok (s.copied longRecord) := by
    rw [step, if_neg (by rw [filling.opened]; rintro ⟨⟩), if_neg (by rw [filling.idle]; rintro ⟨⟩),
      tryCopy, if_pos free]
  have within := (all _ (runSteps_concat ran moved)).within
    ((s.db.bufferSliceInfo s.db.processSlice).inpBufferIdx, longRecord.bytes.length)
    (List.mem_append_right _ (List.mem_singleton_self _))
  rw [place, current, length] at within
  exact absurd within (by decide)

end LogRun

end CPUDelaySim
