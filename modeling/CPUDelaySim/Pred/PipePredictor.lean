import CPUDelaySim.Cpu.Pipeline
import CPUDelaySim.Pred.Layers
import Mathlib.Data.Nat.Log

/-!
# The predictor of the pipeline

`PipePredictor` with its BTB and its GShare tables, of `pred/pipepredictor.cpp`,
`pred/predictor.cpp`, `pred/bp/btb.cpp` and `pred/bp/gshare.cpp`.  The predictors behind the two
and the histories are a parameter (`OtherBps`).

Only `update` writes the two tables and the counters, and only `predict` gives out a record: they
go round, so a record is taken again `retire_size` calls later.
-/

namespace CPUDelaySim

/-! ### The tables -/

/-- `(1 << n) - 1`. -/
def lowMask (n : Nat) : Word := ((1#32 <<< n) - 1#32).signExtend 64

/-- `BTBEntry`. -/
structure BtbEntry where
  valid : Bool
  tag : Word
  target : Word

/-- The configuration of `class BTB`. -/
structure Btb where
  tableSize : Nat
  tagSize : Nat
  offset : Nat

namespace Btb

/-- `getIndexTag`, with `tag_shift`, `tag_mask` and `index_mask` of `afterLoad`. -/
def getIndexTag (c : Btb) (pc : Word) : Word × Nat :=
  let indexSize := Nat.clog 2 c.tableSize
  ((pc >>> (c.offset + indexSize)) &&& lowMask c.tagSize,
    ((pc >>> c.offset) &&& lowMask indexSize).toNat)

/-- `BTB::predict`. -/
def predict (c : Btb) (table : Nat → BtbEntry) (stream : SizedStream) : SizedStream :=
  let (tag, index) := c.getIndexTag stream.pc
  if (table index).valid && (table index).tag == tag then
    { stream with target := (table index).target }
  else { stream with size := 4 }

end Btb

/-- `type >= BRANCH_START && type <= BRANCH_END`. -/
def InstType.isBranch (type : InstType) : Bool := type == .cond || type.isDirect || type.isJump

/-- `BTB::update`. -/
def Btb.update (c : Btb) (pc target : Word) (type : InstType) (table : Nat → BtbEntry) :
    Nat → BtbEntry :=
  if type.isBranch then
    let (tag, index) := c.getIndexTag pc
    Function.update table index ⟨true, tag, target⟩
  else table

/-- `updateCounter`, which saturates. -/
def updateCounter (old : Int) (taken : Bool) (least greatest : Int) : Int :=
  min (max (old + if taken then 1 else -1) least) greatest

/-- The configuration of `class GShareBP`. -/
structure Gshare where
  tableSize : Nat
  bitSize : Nat
  offset : Nat
  histBits : Nat

namespace Gshare

/-- The index of both functions. -/
def index (c : Gshare) (pc : Word) (ghist : BitVec 32) : Nat :=
  let tablePcMask := lowMask (Nat.clog 2 c.tableSize)
  ((((pc &&& tablePcMask) >>> c.offset) ^^^ ghist.setWidth 64) &&& tablePcMask).toNat

/-- `GShareBP::predict`; the history goes into the record. -/
def predict (c : Gshare) (table : Nat → BitVec 8) (block : Word) (ghr : BitVec 32)
    (stream : SizedStream) : SizedStream × BitVec 32 :=
  if stream.type = .cond then
    let ghist := gshareGhist c.histBits block
    ({ stream with taken := decide (0 ≤ (table (c.index stream.pc ghist)).toInt) }, ghist)
  else (stream, ghr)

/-- `GShareBP::update`. -/
def update (c : Gshare) (realTaken : Bool) (pc : Word) (type : InstType) (ghr : BitVec 32)
    (table : Nat → BitVec 8) : Nat → BitVec 8 :=
  if type = .cond then
    let greatest : Int := 2 ^ c.bitSize - 1
    let i := c.index pc ghr
    Function.update table i
      (BitVec.ofInt 8 (updateCounter (table i).toInt realTaken (-greatest - 1) greatest))
  else table

end Gshare

/-! ### The predictor -/

/-- The predictors behind the two tables, and the histories: `σ` is their state, and `μ` what they
put into a record. -/
structure OtherBps (σ μ : Type) where
  getMeta : σ → μ
  latestBlock : σ → Word
  predict : SizedStream → μ → σ → SizedStream × μ × σ
  /-- `history_manager->update(true, ...)`. -/
  speculate (taken : Bool) (type : InstType) : μ → σ → σ
  redirect (realTaken : Bool) (pc : Word) (size : Byte) (target : Word) (type : InstType) :
    μ → σ → σ

/-- `Predictor::MetaInfo`, with the history that GShare keeps in it. -/
structure PipeRecord (μ : Type) where
  stream : SizedStream
  ghr : BitVec 32
  other : μ
  predAddr : Word
  taken : Bool

/-- The configuration of `class PipePredictor`. -/
structure PipePredictor (σ μ : Type) where
  retireSize : Nat
  btb : Btb
  gshare : Gshare
  others : OtherBps σ μ

/-- The two tables. -/
structure BranchTables where
  btb : Nat → BtbEntry
  gshare : Nat → BitVec 8

/-- The counters of `class Predictor` that count predictions. -/
structure PredCounts where
  predTimes : Nat
  condPredTimes : Nat
  indirectPredTimes : Nat
  callPredTimes : Nat
  deriving DecidableEq, Repr

/-- The `switch` of `Predictor::update`. -/
def PredCounts.count (type : InstType) (c : PredCounts) : PredCounts :=
  let c := match type with
    | .cond => { c with condPredTimes := c.condPredTimes + 1 }
    | .indirect | .indCall | .indPush => { c with indirectPredTimes := c.indirectPredTimes + 1 }
    | .pop | .popPush => { c with callPredTimes := c.callPredTimes + 1 }
    | _ => c
  { c with predTimes := c.predTimes + 1 }

/-- `class PipePredictor`. -/
structure PipePredictorState (σ μ : Type) where
  metas : Nat → PipeRecord μ
  metaIdx : Nat
  tables : BranchTables
  other : σ
  counts : PredCounts

namespace PipePredictor

variable {σ μ : Type} (C : PipePredictor σ μ)

/-- What `update` does to the tables, with the history that the record holds. -/
def learn (realTaken : Bool) (pc target : Word) (type : InstType) (ghr : BitVec 32)
    (t : BranchTables) : BranchTables :=
  ⟨C.btb.update pc target type t.btb, C.gshare.update realTaken pc type ghr t.gshare⟩

/-- `Predictor::afterLoad`; the records are as `malloc` leaves them. -/
def afterLoad (metas : Nat → PipeRecord μ) (other : σ) : PipePredictorState σ μ where
  metas := metas
  metaIdx := 0
  tables := ⟨fun _ => ⟨false, 0, 0⟩, fun _ => 0⟩
  other := other
  counts := ⟨0, 0, 0, 0⟩

/-- `PipePredictor::predict`. -/
def predict (pc : Word) (info : DecodeInfo) (s : PipePredictorState σ μ) :
    Prediction × PipePredictorState σ μ :=
  let old := s.metas s.metaIdx
  let stream : SizedStream := { old.stream with
    pc := pc, type := info.type, taken := false, indv := false, rasv := false }
  let stream := C.btb.predict s.tables.btb stream
  let (stream, ghr) :=
    C.gshare.predict s.tables.gshare (C.others.latestBlock s.other) old.ghr stream
  let (stream, other, own) := C.others.predict stream (C.others.getMeta s.other) s.other
  let next := pc + info.instSize.setWidth 64
  let (predAddr, taken) := match info.type with
    | .cond => (if stream.taken then info.dst2.data else next, stream.taken)
    | .direct | .push => (info.dst2.data, true)
    | .indCall | .indPush | .indirect =>
        (if stream.indv then stream.indTarget else stream.target, true)
    | .pop | .popPush => (if stream.rasv then stream.rasTarget else stream.target, true)
    | _ => (next, false)
  (⟨s.metaIdx, predAddr, taken⟩, { s with
    metas := Function.update s.metas s.metaIdx ⟨stream, ghr, other, predAddr, taken⟩
    metaIdx := (s.metaIdx + 1) % C.retireSize
    other := C.others.speculate stream.taken info.type other own })

/-- `Predictor::redirect`; the tables have none of their own. -/
def redirect (realTaken : Bool) (pc : Word) (size : Byte) (target : Word) (type : InstType)
    (metaIdx : Int) (s : PipePredictorState σ μ) : PipePredictorState σ μ :=
  { s with other :=
      C.others.redirect realTaken pc size target type (s.metas metaIdx.toNat).other s.other }

/-- `Predictor::update`; the counters of wrong predictions are left out. -/
def update (realTaken : Bool) (pc : Word) (_size : Byte) (target : Word) (type : InstType)
    (metaIdx : Int) (s : PipePredictorState σ μ) : PipePredictorState σ μ :=
  { s with
    tables := C.learn realTaken pc target type (s.metas metaIdx.toNat).ghr s.tables
    counts := s.counts.count type }

/-- The predictor as the pipeline calls it. -/
def toPredictor : Predictor (PipePredictorState σ μ) := ⟨C.predict, C.redirect, C.update⟩

end PipePredictor

/-! ### The configuration of the pipeline -/

/-- Predictors that say nothing. -/
def noOthers : OtherBps Unit Unit where
  getMeta := fun _ => ()
  latestBlock := fun _ => 0
  predict := fun stream _ _ => (stream, (), ())
  speculate := fun _ _ _ _ => ()
  redirect := fun _ _ _ _ _ _ _ => ()

/-- Ten records, a BTB of 256 entries and 1024 counters. -/
def twoTables : PipePredictor Unit Unit := ⟨10, ⟨256, 20, 1⟩, ⟨1024, 2, 1, 6⟩, noOthers⟩

/-- A record as it may be before the first call of `predict`. -/
def blankRecord : PipeRecord Unit where
  stream := ⟨⟨⟨false, false, 0, 0⟩, .int, false, 0, 0⟩, 0⟩
  ghr := 0
  other := ()
  predAddr := 0
  taken := false

end CPUDelaySim
