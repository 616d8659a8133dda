import CPUDelaySim.Cpu.PredictorLog

/-!
# The counters of GShare

`pred/bp/gshare.cpp` finds the counter of a branch twice: `predict` from the live history, and
`update` from the history that `predict` left in the record.  Both find the same one as long as the
record was not handed out again, whatever the histories do in between (`gshare_trains`).

The counter is updated with masks made of signs on an `int` and stored as an `int8_t`.

The counter a prediction looks at is not taken from the code of `predict` a second time.  A
`GshareMade` carries the direction of the prediction as a function of the counters, and `LooksAt`
says which of them that function depends on; so a `predict` that looked nowhere, or elsewhere,
would not satisfy it.

`GshareInv` connects the record to that counter: as long as the record is the one of this
prediction, the index `update` computes from it is the one `LooksAt` names.  `InRange` is an
invariant of the counters alone and needs nothing of the histories.
-/

namespace CPUDelaySim

variable {σ μ : Type}

/-! ### The arithmetic -/

/-- `updateCounter` as it is computed on `int`s; the parameter `mask` is not used. -/
def updateCounterInt (old : BitVec 32) (taken : Bool) (least greatest : BitVec 32) : BitVec 32 :=
  let takenVal := ((BitVec.ofBool taken).setWidth 32 <<< 1) - 1
  let newVal := old + takenVal
  let belowMin := (BitVec.ofBool (newVal.slt least)).setWidth 32
  let newVal := (newVal &&& ~~~(-belowMin)) ||| (least &&& -belowMin)
  let aboveMax := (BitVec.ofBool (greatest.slt newVal)).setWidth 32
  (newVal &&& ~~~(-aboveMax)) ||| (greatest &&& -aboveMax)

/-- A mask made of a sign selects. -/
theorem select_mask (x y : BitVec 32) (c : Bool) :
    (x &&& ~~~(-(BitVec.ofBool c).setWidth 32)) ||| (y &&& -(BitVec.ofBool c).setWidth 32) =
      if c then y else x := by
  cases c with
  | false =>
      have zero : -(BitVec.ofBool false).setWidth 32 = 0#32 := by decide
      rw [zero, BitVec.not_zero, BitVec.and_allOnes, BitVec.and_zero, BitVec.or_zero]
      rfl
  | true =>
      have ones : -(BitVec.ofBool true).setWidth 32 = BitVec.allOnes 32 := by decide
      rw [ones, BitVec.not_allOnes, BitVec.and_zero, BitVec.and_allOnes, BitVec.zero_or]
      rfl

/-- The masks keep the counter between the bounds. -/
theorem updateCounterInt_toInt (old least greatest : BitVec 32) (taken : Bool)
    (low : -2 ^ 31 < old.toInt) (high : old.toInt < 2 ^ 31 - 1) :
    (updateCounterInt old taken least greatest).toInt =
      updateCounter old.toInt taken least.toInt greatest.toInt := by
  have moved : (old + (((BitVec.ofBool taken).setWidth 32 <<< 1) - 1)).toInt =
      old.toInt + if taken then 1 else -1 := by
    have step :
        (((BitVec.ofBool taken).setWidth 32 <<< 1) - 1).toInt = if taken then 1 else -1 := by
      cases taken <;> decide
    rw [BitVec.toInt_add, step]
    refine Int.bmod_eq_of_le ?_ ?_
    · split <;> omega
    · split <;> omega
  rw [updateCounterInt, select_mask, select_mask, updateCounter, ← moved]
  generalize old + (((BitVec.ofBool taken).setWidth 32 <<< 1) - 1) = newVal
  by_cases below : newVal.toInt < least.toInt
  · have first : newVal.slt least = true := BitVec.slt_iff_toInt_lt.2 below
    rw [first, if_pos rfl, max_eq_right below.le]
    by_cases above : greatest.toInt < least.toInt
    · have second : greatest.slt least = true := BitVec.slt_iff_toInt_lt.2 above
      rw [second, if_pos rfl, min_eq_right above.le]
    · rw [if_neg (mt BitVec.slt_iff_toInt_lt.1 above), min_eq_left (by omega)]
  · rw [if_neg (mt BitVec.slt_iff_toInt_lt.1 below), max_eq_left (by omega)]
    by_cases above : greatest.toInt < newVal.toInt
    · have second : greatest.slt newVal = true := BitVec.slt_iff_toInt_lt.2 above
      rw [second, if_pos rfl, min_eq_right above.le]
    · rw [if_neg (mt BitVec.slt_iff_toInt_lt.1 above), min_eq_left (by omega)]

namespace Gshare

variable (c : Gshare)

/-- `max_size`. -/
def maxSize : BitVec 32 := (1#32 <<< c.bitSize) - 1#32

/-- `min_size`. -/
def minSize : BitVec 32 := -c.maxSize - 1#32

/-- `GShareBP::update`, with the arithmetic of `updateCounter`. -/
def updateInt (realTaken : Bool) (pc : Word) (type : InstType) (ghr : BitVec 32)
    (table : Nat → BitVec 8) : Nat → BitVec 8 :=
  if type = .cond then
    let i := c.index pc ghr
    Function.update table i
      ((updateCounterInt ((table i).signExtend 32) realTaken c.minSize c.maxSize).setWidth 8)
  else table

/-- For a conditional branch, the direction is the sign of the counter that its history and its
pc select, whatever the others hold. -/
theorem predict_taken (table : Nat → BitVec 8) (block : Word) (ghr : BitVec 32)
    (stream : SizedStream) (cond : stream.type = .cond) :
    (c.predict table block ghr stream).1.taken =
        decide (0 ≤ (table (c.index stream.pc (gshareGhist c.histBits block))).toInt) ∧
      (c.predict table block ghr stream).2 = gshareGhist c.histBits block := by
  rw [predict, if_pos cond]
  exact ⟨rfl, rfl⟩

variable {c}

/-- The largest value of a counter, as a number. -/
theorem maxSize_toInt (small : c.bitSize ≤ 7) : c.maxSize.toInt = 2 ^ c.bitSize - 1 := by
  have bits : ∀ n ≤ 7, ((1#32 <<< n) - 1#32).toInt = 2 ^ n - 1 := by decide
  exact bits c.bitSize small

/-- The smallest value of a counter, as a number. -/
theorem minSize_toInt (small : c.bitSize ≤ 7) : c.minSize.toInt = -2 ^ c.bitSize := by
  have bits : ∀ n ≤ 7, (-((1#32 <<< n) - 1#32) - 1#32).toInt = -2 ^ n := by decide
  exact bits c.bitSize small

/-- The mask of a table of `2 ^ k` counters keeps an index inside. -/
theorem index_lt {k : Nat} (power : c.tableSize = 2 ^ k) (int : k < 31) (pc : Word)
    (ghist : BitVec 32) : c.index pc ghist < c.tableSize := by
  have masks : ∀ k < 31, (lowMask k).toNat = 2 ^ k - 1 := by decide
  have pos : 0 < 2 ^ k := Nat.two_pow_pos k
  rw [index, power, Nat.clog_pow 2 k (by decide), BitVec.toNat_and]
  refine Nat.lt_of_le_of_lt Nat.and_le_right ?_
  rw [masks k int]
  omega

/-- The counters are in their range. -/
def InRange (c : Gshare) (table : Nat → BitVec 8) : Prop :=
  ∀ i, -2 ^ c.bitSize ≤ (table i).toInt ∧ (table i).toInt ≤ 2 ^ c.bitSize - 1

/-- A counter is kept in eight bits. -/
theorem setWidth_eq_ofInt (v : BitVec 32) : v.setWidth 8 = BitVec.ofInt 8 v.toInt := by
  refine BitVec.eq_of_toNat_eq ?_
  rw [BitVec.toNat_setWidth, BitVec.toNat_ofInt, BitVec.toInt_eq_toNat_cond]
  split <;> omega

/-- `update` is the update with masks. -/
theorem update_eq (small : c.bitSize ≤ 7) (realTaken : Bool) (pc : Word) (type : InstType)
    (ghr : BitVec 32) (table : Nat → BitVec 8) :
    c.update realTaken pc type ghr table = c.updateInt realTaken pc type ghr table := by
  unfold update updateInt
  split
  · have wide := BitVec.toInt_signExtend_of_le (x := table (c.index pc ghr)) (v := 32) (by decide)
    have least := BitVec.le_toInt (table (c.index pc ghr))
    have greatest := BitVec.toInt_lt (x := table (c.index pc ghr))
    dsimp only
    rw [setWidth_eq_ofInt, updateCounterInt_toInt _ _ _ _ (by omega) (by omega), wide,
      maxSize_toInt small, minSize_toInt small]
    refine congrArg
      (fun least => Function.update table _ (BitVec.ofInt 8 (updateCounter _ _ least _))) ?_
    omega
  · rfl

/-- A range of at most eight bits around zero. -/
theorem two_pow_le (small : c.bitSize ≤ 7) :
    (0 : Int) < 2 ^ c.bitSize ∧ (2 : Int) ^ c.bitSize ≤ 128 := by
  have powers : ∀ n ≤ 7, (0 : Int) < 2 ^ n ∧ (2 : Int) ^ n ≤ 128 := by decide
  exact powers c.bitSize small

/-- A counter of a branch goes one step towards its direction, and stays in its range. -/
theorem update_counter (small : c.bitSize ≤ 7) (realTaken : Bool) (pc : Word) (ghr : BitVec 32)
    (table : Nat → BitVec 8) :
    (c.update realTaken pc .cond ghr table (c.index pc ghr)).toInt =
      min (max ((table (c.index pc ghr)).toInt + if realTaken then 1 else -1) (-2 ^ c.bitSize))
        (2 ^ c.bitSize - 1) := by
  obtain ⟨pos, le⟩ := two_pow_le small
  have least : -((2 : Int) ^ c.bitSize - 1) - 1 = -2 ^ c.bitSize := by omega
  rw [update, if_pos rfl, Function.update_self, least, updateCounter, BitVec.toInt_ofInt]
  -- The bounds are those of an `int8_t` or narrower, so the cast keeps the value.
  refine Int.bmod_eq_of_le ?_ ?_
  · refine le_min (le_trans ?_ (le_max_right _ _)) ?_
    · omega
    · omega
  · refine lt_of_le_of_lt (min_le_right _ _) ?_
    omega

/-- An update changes one counter. -/
theorem update_of_ne (realTaken : Bool) (pc : Word) (ghr : BitVec 32) (table : Nat → BitVec 8)
    {i : Nat} (other : i ≠ c.index pc ghr) : c.update realTaken pc .cond ghr table i = table i := by
  rw [update, if_pos rfl]
  exact Function.update_of_ne other _ _

/-- An update keeps every counter between the two bounds. -/
theorem InRange.update {table : Nat → BitVec 8} (inRange : c.InRange table) (small : c.bitSize ≤ 7)
    (realTaken : Bool) (pc : Word) (type : InstType) (ghr : BitVec 32) :
    c.InRange (c.update realTaken pc type ghr table) := by
  intro i
  by_cases cond : type = .cond
  · subst cond
    by_cases here : i = c.index pc ghr
    · obtain ⟨pos, -⟩ := two_pow_le small
      rw [here, update_counter small]
      refine ⟨le_min (le_max_right _ _) ?_, min_le_right _ _⟩
      omega
    · rw [update_of_ne realTaken pc ghr table here]
      exact inRange i
  · rw [Gshare.update, if_neg cond]
    exact inRange i

end Gshare

/-! ### The counter a prediction looks at -/

namespace PipePredictor

/-- The predictor with nothing behind its two tables that changes the stream. -/
def bare (C : PipePredictor σ μ) : PipePredictor σ μ :=
  { C with others := { C.others with predict := fun stream own other => (stream, own, other) } }

/-- The direction that `predict` has from its tables, were the counters of GShare these. -/
def direction (C : PipePredictor σ μ) (pc : Word) (info : DecodeInfo)
    (s : PipePredictorState σ μ) (table : Nat → BitVec 8) : Bool :=
  ((C.bare.predict pc info { s with tables := { s.tables with gshare := table } }).2.metas
    s.metaIdx).stream.taken

/-- The BTB passes on the branch it is asked about. -/
theorem btb_predict_branch (b : Btb) (table : Nat → BtbEntry) (stream : SizedStream) :
    (b.predict table stream).pc = stream.pc ∧ (b.predict table stream).type = stream.type := by
  unfold Btb.predict
  dsimp only
  split
  · exact ⟨rfl, rfl⟩
  · exact ⟨rfl, rfl⟩

/-- The direction of a conditional branch is the sign of the counter that the live history
selects. -/
theorem direction_eq (C : PipePredictor σ μ) (pc : Word) (info : DecodeInfo)
    (s : PipePredictorState σ μ) (cond : info.type = .cond) (table : Nat → BitVec 8) :
    C.direction pc info s table = decide (0 ≤ (table (C.gshare.index pc
      (gshareGhist C.gshare.histBits (C.others.latestBlock s.other)))).toInt) := by
  let stream : SizedStream := { (s.metas s.metaIdx).stream with
    pc := pc, type := info.type, taken := false, indv := false, rasv := false }
  obtain ⟨samePc, sameType⟩ := btb_predict_branch C.btb s.tables.btb stream
  have found := (C.gshare.predict_taken table (C.others.latestBlock s.other)
    (s.metas s.metaIdx).ghr (C.btb.predict s.tables.btb stream) (sameType.trans cond)).1
  rw [samePc] at found
  have held : C.direction pc info s table = (C.gshare.predict table
      (C.others.latestBlock s.other) (s.metas s.metaIdx).ghr
      (C.btb.predict s.tables.btb stream)).1.taken :=
    congrArg (fun record : PipeRecord μ => record.stream.taken)
      (Function.update_self s.metaIdx _ s.metas)
  exact held.trans found

/-- The record of a conditional branch has the history that its counter was found with. -/
theorem predict_ghr (C : PipePredictor σ μ) (pc : Word) (info : DecodeInfo)
    (s : PipePredictorState σ μ) (cond : info.type = .cond) :
    ((C.predict pc info s).2.metas (C.predict pc info s).1.metaIdx.toNat).ghr =
      gshareGhist C.gshare.histBits (C.others.latestBlock s.other) := by
  let stream : SizedStream := { (s.metas s.metaIdx).stream with
    pc := pc, type := info.type, taken := false, indv := false, rasv := false }
  have type := (btb_predict_branch C.btb s.tables.btb stream).2.trans cond
  have found := (C.gshare.predict_taken s.tables.gshare (C.others.latestBlock s.other)
    (s.metas s.metaIdx).ghr (C.btb.predict s.tables.btb stream) type).2
  exact (congrArg PipeRecord.ghr (Function.update_self s.metaIdx _ s.metas)).trans found

end PipePredictor

/-! ### Runs -/

/-- A prediction: its event in the log, its branch, and the direction it has from GShare, as a
function of the counters of GShare. -/
structure GshareMade where
  event : Nat
  slot : Int
  pc : Word
  type : InstType
  direction : (Nat → BitVec 8) → Bool

/-- The prediction looks at this counter, and at no other. -/
def GshareMade.LooksAt (m : GshareMade) (i : Nat) : Prop :=
  ∀ table, m.direction table = decide (0 ≤ (table i).toInt)

/-- The runs of a predictor, with the predictions made.  The histories and the other predictors
change in any way and at any time.  An update is that of a prediction after which fewer than
`retire_size` have been made, so that its record was not handed out again. -/
inductive GshareReached (C : PipePredictor σ μ) :
    LoggedPredictor σ μ → List GshareMade → Prop
  | afterLoad (metas : Nat → PipeRecord μ) (other : σ) :
      GshareReached C ⟨PipePredictor.afterLoad metas other, []⟩ []
  | predict {s made} (pc : Word) (info : DecodeInfo) (before : GshareReached C s made) :
      GshareReached C (C.logged.predict pc info s).2
        (⟨s.log.length, (C.logged.predict pc info s).1.metaIdx, pc, info.type,
          C.direction pc info s.state⟩ :: made)
  | history {s made} (other : σ) (before : GshareReached C s made) :
      GshareReached C ⟨{ s.state with other := other }, s.log⟩ made
  | redirect {s made} (realTaken : Bool) (pc : Word) (size : Byte) (target : Word)
      (type : InstType) (metaIdx : Int) (before : GshareReached C s made) :
      GshareReached C (C.logged.redirect realTaken pc size target type metaIdx s) made
  | update {s made} {m : GshareMade} (own : m ∈ made)
      (few : Ring.since s.log m.event < C.retireSize) (realTaken : Bool) (size : Byte)
      (target : Word) (before : GshareReached C s made) :
      GshareReached C (C.logged.update realTaken m.pc size target m.type m.slot s) made

/-- The records are handed out in turn, and that of a branch leads to the counter its prediction
looked at. -/
structure GshareInv (C : PipePredictor σ μ) (s : LoggedPredictor σ μ) (made : List GshareMade) :
    Prop where
  kept : s.ring.Kept C.retireSize
  inRange : C.gshare.InRange s.state.tables.gshare
  reads : ∀ m ∈ made, ∃ record, s.log[m.event]? = some (.takes m.slot record) ∧
    (m.type = .cond → m.LooksAt (C.gshare.index m.pc record.ghr))

section Inv

variable {C : PipePredictor σ μ} {s : LoggedPredictor σ μ} {made : List GshareMade}

/-- More events do not change what was read. -/
theorem GshareInv.reads_append (inv : GshareInv C s made) (rest : List (RingEvent (PipeRecord μ))) :
    ∀ m ∈ made, ∃ record, (s.log ++ rest)[m.event]? = some (.takes m.slot record) ∧
      (m.type = .cond → m.LooksAt (C.gshare.index m.pc record.ghr)) := by
  intro m member
  obtain ⟨record, taken, looks⟩ := inv.reads m member
  have bound := (List.getElem?_eq_some_iff.1 taken).1
  exact ⟨record, (List.getElem?_append_left bound).trans taken, looks⟩

/-- The invariant holds in every state that is reached. -/
theorem GshareReached.inv (small : C.gshare.bitSize ≤ 7) (reached : GshareReached C s made) :
    GshareInv C s made := by
  induction reached with
  | afterLoad metas other =>
      refine ⟨Ring.kept_start metas, fun i => ?_, fun m member => absurd member List.not_mem_nil⟩
      obtain ⟨pos, -⟩ := Gshare.two_pow_le small
      have zero : ((0 : BitVec 8)).toInt = 0 := by decide
      change -2 ^ C.gshare.bitSize ≤ ((0 : BitVec 8)).toInt ∧ ((0 : BitVec 8)).toInt ≤ _
      rw [zero]
      omega
  | @predict s made pc info before ih =>
      obtain ⟨record, handed⟩ := C.logged_onRing.predict pc info s
      refine ⟨handed ▸ ih.kept.take record, ih.inRange, ?_⟩
      intro m member
      rcases List.mem_cons.1 member with rfl | member
      · have looks (cond : info.type = .cond) (table : Nat → BitVec 8) :
            C.direction pc info s.state table = decide (0 ≤ (table (C.gshare.index pc
              ((C.predict pc info s.state).2.metas
                (C.predict pc info s.state).1.metaIdx.toNat).ghr)).toInt) := by
          rw [C.predict_ghr pc info s.state cond]
          exact C.direction_eq pc info s.state cond table
        exact ⟨_, List.getElem?_concat_length, looks⟩
      · exact ih.reads_append _ m member
  | history other before ih => exact ⟨ih.kept, ih.inRange, ih.reads⟩
  | redirect realTaken pc size target type metaIdx before ih =>
      exact ⟨ih.kept.read metaIdx, ih.inRange, ih.reads_append _⟩
  | @update s made m own few realTaken size target before ih =>
      exact ⟨ih.kept.read m.slot, ih.inRange.update small _ _ _ _, ih.reads_append _⟩

end Inv

/-- The counters are in their range.  The prediction of a conditional branch looks at one counter
of the table and at no other, and the update of that branch moves this counter one step towards the
outcome, and no other. -/
theorem gshare_trains {C : PipePredictor σ μ} {k : Nat} (power : C.gshare.tableSize = 2 ^ k)
    (int : k < 31) (small : C.gshare.bitSize ≤ 7) {s : LoggedPredictor σ μ}
    {made : List GshareMade} (reached : GshareReached C s made) :
    C.gshare.InRange s.state.tables.gshare ∧
      ∀ m ∈ made, m.type = .cond → ∃ i < C.gshare.tableSize, m.LooksAt i ∧
        (Ring.since s.log m.event < C.retireSize → ∀ realTaken size target,
          let old := s.state.tables.gshare
          let new :=
            (C.logged.update realTaken m.pc size target m.type m.slot s).state.tables.gshare
          (∀ j ≠ i, new j = old j) ∧
            new i = (updateCounterInt ((old i).signExtend 32) realTaken C.gshare.minSize
              C.gshare.maxSize).setWidth 8 ∧
            (new i).toInt = min (max ((old i).toInt + if realTaken then 1 else -1)
              (-2 ^ C.gshare.bitSize)) (2 ^ C.gshare.bitSize - 1)) := by
  have inv := reached.inv small
  refine ⟨inv.inRange, ?_⟩
  intro m member cond
  obtain ⟨record, taken, looks⟩ := inv.reads m member
  refine ⟨C.gshare.index m.pc record.ghr, Gshare.index_lt power int _ _, looks cond, ?_⟩
  intro few realTaken size target
  have held : s.state.metas m.slot.toNat = record := inv.kept.record m.event m.slot record taken few
  have new : (C.logged.update realTaken m.pc size target m.type m.slot s).state.tables.gshare =
      C.gshare.update realTaken m.pc .cond record.ghr s.state.tables.gshare := by
    rw [← held, ← cond]
    rfl
  dsimp only
  rw [new]
  refine ⟨fun j other => Gshare.update_of_ne realTaken m.pc record.ghr _ other, ?_,
    Gshare.update_counter small realTaken m.pc record.ghr _⟩
  rw [Gshare.update_eq small, Gshare.updateInt, if_pos rfl, Function.update_self]

/-- A conditional branch at 0x80000000, predicted and then not taken, with another prediction and a
change of the histories in between. -/
theorem gshare_trains_notTaken :
    ∃ s made, GshareReached twoTables s made ∧ ∃ m ∈ made, ∃ i, m.LooksAt i ∧
      ((twoTables.logged.update false m.pc 4 0x80000004 m.type m.slot
        s).state.tables.gshare i).toInt =
        -1 := by
  have start : GshareReached twoTables _ [] := .afterLoad (fun _ => blankRecord) ()
  have branch := start.predict 0x80000000 { DecodeInfo.zero with type := .cond }
  have other := (branch.history ()).predict 0x80000004 DecodeInfo.zero
  obtain ⟨-, trains⟩ := gshare_trains (k := 10) rfl (by decide) (by decide) other
  refine ⟨_, _, other, _, List.mem_cons_of_mem _ List.mem_cons_self, ?_⟩
  obtain ⟨i, -, looks, moves⟩ := trains _ (List.mem_cons_of_mem _ List.mem_cons_self) rfl
  obtain ⟨-, -, moved⟩ := moves (by decide) false 4 0x80000004
  exact ⟨i, looks, moved⟩

end CPUDelaySim
