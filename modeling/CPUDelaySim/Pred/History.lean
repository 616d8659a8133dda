import CPUDelaySim.Common.BitHistory
import CPUDelaySim.Common.DecodeInfo

/-!
# The global history

`GHR` of `pred/history/ghr.cpp` and the `HistoryManager` that calls it; there is no other
`History`.  A snapshot is an index that counts the outcomes shifted in, and a redirect shifts the
bits back by the difference of the indices, an `int` that `operator>>=` takes as a `size_t`.

`HistoryRun` runs the manager next to the history it stands for, a list with the newest outcome
first.  The snapshots of a run are the live ones: a redirect squashes what was fetched after its
branch.
-/

namespace CPUDelaySim

/-- `GHRMeta`. -/
structure GhrMeta where
  idx : BitVec 32

/-- `class GHR`. -/
structure Ghr (β : Type) where
  ghr : β
  ghrIdx : BitVec 32

variable {β : Type} (D : DynamicBitset β)

namespace Ghr

/-- `GHR::afterLoad`. -/
def afterLoad (ghrSize : Nat) : Ghr β := ⟨D.zeros ghrSize, 0⟩

/-- The part of `GHR::update` that shifts an outcome in. -/
def extend (realTaken : Bool) (s : Ghr β) : Ghr β :=
  ⟨D.set (D.shiftLeft s.ghr 1) 0 realTaken, s.ghrIdx + 1⟩

/-- `GHR::update`; only a redirect reads the snapshot. -/
def update (speculative realTaken : Bool) (type : InstType) (metaInfo : GhrMeta) (s : Ghr β) :
    Ghr β :=
  let typeCond := type == .cond
  if !speculative then
    let shiftSize : BitVec 32 := s.ghrIdx - metaInfo.idx
    let s : Ghr β := ⟨D.shiftRight s.ghr (shiftSize.signExtend 64).toNat, metaInfo.idx⟩
    if !typeCond then s else s.extend D realTaken
  else if typeCond then s.extend D realTaken
  else s

/-- `GHR::getMeta`. -/
def getMeta (s : Ghr β) : GhrMeta := ⟨s.ghrIdx⟩

/-- `GHR::getLatestBlock`. -/
def getLatestBlock (s : Ghr β) : Option Word := D.toUlong s.ghr

end Ghr

/-- `class HistoryManager`. -/
structure HistoryManager (β : Type) where
  histories : List (Ghr β)

namespace HistoryManager

/-- `HistoryManager::getMeta`. -/
def getMeta (m : HistoryManager β) : List GhrMeta := m.histories.map Ghr.getMeta

/-- `HistoryManager::update`. -/
def update (speculative realTaken : Bool) (type : InstType) (metas : List GhrMeta)
    (m : HistoryManager β) : HistoryManager β :=
  ⟨List.zipWith (fun metaInfo s => Ghr.update D speculative realTaken type metaInfo s) metas
    m.histories⟩

end HistoryManager

/-- `GShareBP::predict`: `hist_mask`, and `ghist` from the latest block. -/
def gshareGhist (histBits : Nat) (block : Word) : BitVec 32 :=
  let histMask : BitVec 32 := (1#32 <<< histBits) - 1#32
  (block &&& histMask.setWidth 64).setWidth 32

/-! ### Runs -/

/-- A snapshot, the length of the history it was taken at, and how many outcomes have been
predicted after it. -/
structure Snapshot where
  metas : List GhrMeta
  depth : Nat
  made : Nat

/-- One more prediction after the snapshot. -/
def Snapshot.count (s : Snapshot) : Snapshot := { s with made := s.made + 1 }

/-- The history after an outcome. -/
def extendHistory (type : InstType) (taken : Bool) (history : List Bool) : List Bool :=
  if type = .cond then taken :: history else history

/-- The snapshots after an outcome. -/
def countAfter (outcome : Prop) [Decidable outcome] (snapshots : List Snapshot) : List Snapshot :=
  if outcome then snapshots.map Snapshot.count else snapshots

/-- A run in which at most `K` outcomes are predicted after a snapshot that a redirect goes to.
`strict` says whether a redirect that shifts in an outcome its branch never predicted counts as a
prediction. -/
inductive HistoryRun (ghrSize K : Nat) (strict : Bool) :
    HistoryManager β → List Bool → List Snapshot → Prop
  | afterLoad (number : Nat) :
      HistoryRun ghrSize K strict ⟨List.replicate number (Ghr.afterLoad D ghrSize)⟩ [] []
  | getMeta {m history snapshots} (before : HistoryRun ghrSize K strict m history snapshots) :
      HistoryRun ghrSize K strict m history (⟨m.getMeta, history.length, 0⟩ :: snapshots)
  | predict {m history snapshots} (taken : Bool) (type : InstType)
      (before : HistoryRun ghrSize K strict m history snapshots) :
      HistoryRun ghrSize K strict (m.update D true taken type m.getMeta)
        (extendHistory type taken history) (countAfter (type = .cond) snapshots)
  | redirect {m history younger snapshot older} (taken : Bool) (type : InstType)
      (before : HistoryRun ghrSize K strict m history (younger ++ snapshot :: older))
      (few : snapshot.made ≤ K) :
      HistoryRun ghrSize K strict (m.update D false taken type snapshot.metas)
        (extendHistory type taken (history.drop (history.length - snapshot.depth)))
        (countAfter (strict = true ∧ type = .cond ∧ snapshot.made = 0) (snapshot :: older))

/-! ### One history -/

/-- The bits and the index of a `GHR` that stands for a history. -/
structure Ghr.Holds (ghrSize peak : Nat) (history : List Bool) (s : Ghr β) : Prop where
  size : D.size s.ghr = ghrSize
  idx : s.ghrIdx = BitVec.ofNat 32 history.length
  window : Window ghrSize peak (D.test s.ghr) history

section Ghr

variable {D} {ghrSize peak : Nat} {history : List Bool} {s : Ghr β}

/-- A branch shifts its outcome in and counts one more. -/
theorem Ghr.Holds.extend (holds : s.Holds D ghrSize peak history) (nonempty : 0 < ghrSize)
    (taken : Bool) :
    (s.extend D taken).Holds D ghrSize (max peak (history.length + 1)) (taken :: history) := by
  refine ⟨?_, ?_, ?_⟩
  · rw [Ghr.extend, D.size_set, D.size_shiftLeft]
    exact holds.size
  · rw [Ghr.extend, holds.idx, List.length_cons, BitVec.ofNat_add]
    rfl
  · refine (holds.window.push taken).congr fun i inside => ?_
    have shifted : D.size (D.shiftLeft s.ghr 1) = ghrSize := (D.size_shiftLeft ..).trans holds.size
    rw [Ghr.extend, D.test_set taken i (shifted ▸ nonempty)]
    by_cases newest : i = 0
    · rw [if_pos newest, if_pos newest]
    · have older : 1 ≤ i := Nat.one_le_iff_ne_zero.2 newest
      rw [if_neg newest, if_neg newest, D.test_shiftLeft (holds.size ▸ inside)]
      simp [older]

/-- The shift of a redirect: the difference of the indices does not count the turns they went
round, and is a positive `int`. -/
theorem shiftSize_toNat {length depth : Nat} (le : depth ≤ length)
    (near : length - depth < 2 ^ 31) :
    ((BitVec.ofNat 32 length - BitVec.ofNat 32 depth).signExtend 64).toNat = length - depth := by
  have whole : length = depth + (length - depth) := by omega
  have difference : BitVec.ofNat 32 length - BitVec.ofNat 32 depth =
      BitVec.ofNat 32 (length - depth) := by
    rw [whole, BitVec.ofNat_add, Nat.add_sub_cancel_left, BitVec.add_comm, BitVec.add_sub_cancel]
  have positive : (BitVec.ofNat 32 (length - depth)).msb = false := by
    rw [BitVec.msb_eq_decide, BitVec.toNat_ofNat, Nat.mod_eq_of_lt (by omega)]
    simpa using near
  rw [difference, BitVec.signExtend_eq_setWidth_of_msb_false positive, BitVec.toNat_setWidth,
    BitVec.toNat_ofNat]
  omega

/-- A redirect shifts back what has been shifted in since, as long as the register still holds
it. -/
theorem Ghr.Holds.rollback (holds : s.Holds D ghrSize peak history) {depth : Nat}
    (le : depth ≤ history.length) (near : history.length - depth < 2 ^ 31) :
    (⟨D.shiftRight s.ghr ((s.ghrIdx - BitVec.ofNat 32 depth).signExtend 64).toNat,
        BitVec.ofNat 32 depth⟩ : Ghr β).Holds D ghrSize peak
      (history.drop (history.length - depth)) := by
  refine ⟨(D.size_shiftRight ..).trans holds.size, ?_, ?_⟩
  · rw [List.length_drop, Nat.sub_sub_self le]
  · rw [holds.idx, shiftSize_toNat le near]
    exact (holds.window.drop (Nat.sub_le ..)).congr fun i _ => D.test_shiftRight ..

/-- A speculative update. -/
theorem Ghr.Holds.predict (holds : s.Holds D ghrSize peak history) (nonempty : 0 < ghrSize)
    (taken : Bool) (type : InstType) (metaInfo : GhrMeta) :
    (s.update D true taken type metaInfo).Holds D ghrSize
      (max peak (extendHistory type taken history).length) (extendHistory type taken history) := by
  by_cases cond : type = .cond
  · subst cond
    exact holds.extend nonempty taken
  · have unchanged : s.update D true taken type metaInfo = s := by
      simp [Ghr.update, cond]
    rw [unchanged, extendHistory, if_neg cond, Nat.max_eq_left holds.window.1]
    exact holds

/-- The update of a redirect. -/
theorem Ghr.Holds.redirect (holds : s.Holds D ghrSize peak history) (nonempty : 0 < ghrSize)
    {depth : Nat} (le : depth ≤ history.length) (near : history.length - depth < 2 ^ 31)
    (taken : Bool) (type : InstType) {metaInfo : GhrMeta}
    (saved : metaInfo.idx = BitVec.ofNat 32 depth) :
    let history' := extendHistory type taken (history.drop (history.length - depth))
    (s.update D false taken type metaInfo).Holds D ghrSize (max peak history'.length) history' := by
  have back := holds.rollback le near
  by_cases cond : type = .cond
  · subst cond
    rw [← saved] at back
    exact back.extend nonempty taken
  · have rolled : s.update D false taken type metaInfo =
        ⟨D.shiftRight s.ghr ((s.ghrIdx - metaInfo.idx).signExtend 64).toNat, metaInfo.idx⟩ := by
      simp [Ghr.update, cond]
    dsimp only
    rw [rolled, saved, extendHistory, if_neg cond, Nat.max_eq_left back.window.1]
    exact back

end Ghr

/-- Each history is updated with its own part of the record. -/
theorem HistoryManager.mem_update {speculative taken : Bool} {type : InstType}
    {metas : List GhrMeta} {m : HistoryManager β} {s' : Ghr β}
    (mem : s' ∈ (m.update D speculative taken type metas).histories) :
    ∃ metaInfo ∈ metas, ∃ s ∈ m.histories, s' = s.update D speculative taken type metaInfo := by
  rw [HistoryManager.update, ← List.map_uncurry_zip_eq_zipWith] at mem
  obtain ⟨⟨metaInfo, s⟩, both, rfl⟩ := List.mem_map.1 mem
  obtain ⟨left, right⟩ := List.of_mem_zip both
  exact ⟨metaInfo, left, s, right, rfl⟩

/-! ### Every history of a run -/

/-- What a live snapshot has to do with the history, of which `peak` is the greatest length. -/
structure Snapshot.Live (K peak : Nat) (history : List Bool) (s : Snapshot) : Prop where
  idx : ∀ metaInfo ∈ s.metas, metaInfo.idx = BitVec.ofNat 32 s.depth
  depth : s.depth ≤ history.length
  length : history.length ≤ s.depth + s.made
  peak : peak ≤ s.depth + max K s.made

/-- One snapshot was taken after the other. -/
def Snapshot.Younger (younger older : Snapshot) : Prop :=
  older.depth ≤ younger.depth ∧ younger.depth + younger.made ≤ older.depth + older.made

/-- Counting a redirect keeps the order of the snapshots. -/
theorem Snapshot.Younger.count {younger older : Snapshot} (after : younger.Younger older) :
    younger.count.Younger older.count :=
  ⟨after.1, Nat.succ_le_succ after.2⟩

/-- The invariant of a run. -/
structure HistoryInv (ghrSize K peak : Nat) (m : HistoryManager β) (history : List Bool)
    (snapshots : List Snapshot) : Prop where
  holds : ∀ s ∈ m.histories, s.Holds D ghrSize peak history
  near : peak ≤ history.length + K
  live : ∀ s ∈ snapshots, s.Live K peak history
  nested : snapshots.Pairwise Snapshot.Younger

/-- So that they stay in order. -/
theorem pairwise_countAfter {snapshots : List Snapshot} (outcome : Prop) [Decidable outcome]
    (nested : snapshots.Pairwise Snapshot.Younger) :
    (countAfter outcome snapshots).Pairwise Snapshot.Younger := by
  unfold countAfter
  split
  · exact nested.map _ fun _ _ after => after.count
  · exact nested

/-- A snapshot that has been counted is one that was there. -/
theorem mem_countAfter {snapshots : List Snapshot} {outcome : Prop} [Decidable outcome]
    {s : Snapshot} (mem : s ∈ countAfter outcome snapshots) :
    ∃ t ∈ snapshots, s.metas = t.metas ∧ s.depth = t.depth ∧
      s.made = if outcome then t.made + 1 else t.made := by
  unfold countAfter at mem
  split at mem
  next happened =>
      obtain ⟨t, live, rfl⟩ := List.mem_map.1 mem
      exact ⟨t, live, rfl, rfl, (if_pos happened).symm⟩
  next quiet => exact ⟨s, mem, rfl, rfl, (if_neg quiet).symm⟩

/-- Only a conditional branch makes the history longer. -/
theorem length_extendHistory (type : InstType) (taken : Bool) (history : List Bool) :
    (extendHistory type taken history).length =
      history.length + if type = .cond then 1 else 0 := by
  unfold extendHistory
  split
  · rfl
  · rfl

section Run

variable {D} {ghrSize K peak : Nat} {m : HistoryManager β} {history : List Bool}
  {snapshots : List Snapshot}

/-- At first no branch is in the history. -/
theorem HistoryInv.afterLoad (ghrSize K number : Nat) :
    HistoryInv D ghrSize K 0 ⟨List.replicate number (Ghr.afterLoad D ghrSize)⟩ [] [] := by
  refine ⟨fun s mem => ?_, Nat.zero_le _, fun _ mem => (nomatch mem), List.Pairwise.nil⟩
  rw [List.eq_of_mem_replicate mem]
  exact ⟨D.size_zeros ghrSize, rfl, (Window.nil ghrSize).congr fun i _ => D.test_zeros ..⟩

/-- A snapshot of the histories is that of the moment. -/
theorem HistoryInv.getMeta (inv : HistoryInv D ghrSize K peak m history snapshots) :
    HistoryInv D ghrSize K peak m history (⟨m.getMeta, history.length, 0⟩ :: snapshots) := by
  refine ⟨inv.holds, inv.near, fun s mem => ?_, List.pairwise_cons.2 ⟨fun s mem => ?_, inv.nested⟩⟩
  · rcases List.mem_cons.1 mem with rfl | mem
    · refine ⟨fun metaInfo saved => ?_, Nat.le_refl _, Nat.le_refl _, ?_⟩
      · obtain ⟨s, held, rfl⟩ := List.mem_map.1 saved
        exact (inv.holds s held).idx
      · have near := inv.near
        dsimp only
        omega
    · exact inv.live s mem
  · exact ⟨(inv.live s mem).depth, (inv.live s mem).length⟩

/-- A prediction extends all histories alike. -/
theorem HistoryInv.predict (inv : HistoryInv D ghrSize K peak m history snapshots)
    (nonempty : 0 < ghrSize) (taken : Bool) (type : InstType) (metas : List GhrMeta) :
    HistoryInv D ghrSize K (max peak (extendHistory type taken history).length)
      (m.update D true taken type metas) (extendHistory type taken history)
      (countAfter (type = .cond) snapshots) := by
  have longer := length_extendHistory type taken history
  refine ⟨fun s' mem => ?_, ?_, fun s mem => ?_, pairwise_countAfter _ inv.nested⟩
  · obtain ⟨metaInfo, -, s, held, rfl⟩ := HistoryManager.mem_update D mem
    exact (inv.holds s held).predict nonempty taken type metaInfo
  · have near := inv.near
    omega
  · obtain ⟨t, mem, metas, depth, made⟩ := mem_countAfter mem
    obtain ⟨idx, le, length, near⟩ := inv.live t mem
    rw [← metas, ← depth] at idx
    have grown : s.made = t.made + if type = .cond then 1 else 0 := by
      split at made
      next cond => rw [if_pos cond, made]
      next other => rw [if_neg other, made, Nat.add_zero]
    refine ⟨idx, ?_, ?_, ?_⟩
    · omega
    · omega
    · omega

/-- A redirect goes back to the snapshot of its branch, of which at most `K` predictions were
made, and leaves the older snapshots. -/
theorem HistoryInv.redirect {younger older : List Snapshot} {snapshot : Snapshot}
    (inv : HistoryInv D ghrSize K peak m history (younger ++ snapshot :: older))
    (nonempty : 0 < ghrSize) (small : K < 2 ^ 31) (few : snapshot.made ≤ K) (taken : Bool)
    (type : InstType) :
    let history' := extendHistory type taken (history.drop (history.length - snapshot.depth))
    HistoryInv D ghrSize K (max peak history'.length)
      (m.update D false taken type snapshot.metas) history'
      (countAfter (true = true ∧ type = .cond ∧ snapshot.made = 0) (snapshot :: older)) := by
  obtain ⟨idx, depth, length, near⟩ := inv.live snapshot (by simp)
  have nested := (List.pairwise_append.1 inv.nested).2.1
  have longer := length_extendHistory type taken (history.drop (history.length - snapshot.depth))
  rw [List.length_drop, Nat.sub_sub_self depth] at longer
  dsimp only
  refine ⟨fun s' mem => ?_, ?_, fun s mem => ?_, pairwise_countAfter _ nested⟩
  · obtain ⟨metaInfo, saved, s, held, rfl⟩ := HistoryManager.mem_update D mem
    exact (inv.holds s held).redirect nonempty depth (by omega) taken type (idx _ saved)
  · omega
  · obtain ⟨t, mem, metas, depth', made⟩ := mem_countAfter mem
    obtain ⟨idx', le, length', near'⟩ := inv.live t (by simp [List.mem_cons.1 mem])
    rw [← metas, ← depth'] at idx'
    have after : t.depth ≤ snapshot.depth ∧ snapshot.depth + snapshot.made ≤ t.depth + t.made := by
      rcases List.mem_cons.1 mem with rfl | mem
      · exact ⟨Nat.le_refl _, Nat.le_refl _⟩
      · exact (List.pairwise_cons.1 nested).1 t mem
    -- An outcome shifted in by the redirect was predicted after the snapshot, or counts now.
    have grown : snapshot.depth + (if type = .cond then 1 else 0) ≤ t.depth + s.made ∧
        t.made ≤ s.made := by
      by_cases cond : type = .cond
      · rw [if_pos cond]
        by_cases first : snapshot.made = 0
        · rw [if_pos ⟨rfl, cond, first⟩] at made
          omega
        · rw [if_neg fun counted => first counted.2.2] at made
          omega
      · rw [if_neg cond]
        rw [if_neg fun counted => cond counted.2.1] at made
        omega
    rw [← longer] at grown
    refine ⟨idx', ?_, ?_, ?_⟩
    · omega
    · omega
    · omega

/-- The invariant holds in every run whose redirects do not go back too far. -/
theorem HistoryRun.inv (run : HistoryRun D ghrSize K true m history snapshots)
    (nonempty : 0 < ghrSize) (small : K < 2 ^ 31) :
    ∃ peak, HistoryInv D ghrSize K peak m history snapshots := by
  induction run with
  | afterLoad number => exact ⟨0, .afterLoad ghrSize K number⟩
  | getMeta before ih =>
      obtain ⟨peak, inv⟩ := ih
      exact ⟨peak, inv.getMeta⟩
  | predict taken type before ih =>
      obtain ⟨peak, inv⟩ := ih
      exact ⟨_, inv.predict nonempty taken type _⟩
  | redirect taken type before few ih =>
      obtain ⟨peak, inv⟩ := ih
      exact ⟨_, inv.redirect nonempty small few taken type⟩

/-- The registers keep their size. -/
theorem HistoryRun.size {strict : Bool} (run : HistoryRun D ghrSize K strict m history snapshots) :
    ∀ s ∈ m.histories, D.size s.ghr = ghrSize := by
  have kept : ∀ {m : HistoryManager β}, (∀ s ∈ m.histories, D.size s.ghr = ghrSize) →
      ∀ speculative taken type metas,
        ∀ s ∈ (m.update D speculative taken type metas).histories, D.size s.ghr = ghrSize := by
    intro m sized speculative taken type metas s mem
    obtain ⟨metaInfo, -, s, held, rfl⟩ := HistoryManager.mem_update D mem
    have size := sized s held
    unfold Ghr.update Ghr.extend
    dsimp only
    split
    · split
      · rw [D.size_shiftRight, size]
      · rw [D.size_set, D.size_shiftLeft, D.size_shiftRight, size]
    · split
      · rw [D.size_set, D.size_shiftLeft, size]
      · exact size
  induction run with
  | afterLoad number =>
      intro s mem
      rw [List.eq_of_mem_replicate mem]
      exact D.size_zeros ghrSize
  | getMeta before ih => exact ih
  | predict taken type before ih => exact kept ih _ _ _ _
  | redirect taken type before few ih => exact kept ih _ _ _ _

/-! ### The block the predictor reads -/

/-- A set of at most 64 bits is a number. -/
theorem exists_latestBlock {s : Ghr β} (size : D.size s.ghr ≤ 64) :
    ∃ block, s.getLatestBlock D = some block := by
  rw [Ghr.getLatestBlock, ← Option.ne_none_iff_exists']
  intro throws
  obtain ⟨i, high, set⟩ := D.toUlong_eq_none.1 throws
  rw [D.test_of_size_le (Nat.le_trans size high)] at set
  cases set

/-- The bits of the history that GShare takes, one by one. -/
theorem getLsbD_gshareGhist (histBits : Nat) (small : histBits < 32) (block : Word) (i : Nat) :
    (gshareGhist histBits block).getLsbD i = (decide (i < histBits) && block.getLsbD i) := by
  have masks : ∀ b < 32, 1#32 <<< b - 1#32 = BitVec.ofNat 32 (2 ^ b - 1) := by decide
  simp only [gshareGhist, masks histBits small, BitVec.getLsbD_setWidth, BitVec.getLsbD_and,
    BitVec.getLsbD_ofNat, Nat.testBit_two_pow_sub_one]
  by_cases inside : i < histBits
  · have word : i < 32 := by omega
    have block : i < 64 := by omega
    simp [inside, word, block]
  · simp [inside]

end Run

/-- In a run, the low bits of every `GHR` are the reference history but for the last `K`. So are
those of its latest block, and what `GShareBP` keeps of it. A conditional redirect to a snapshot
after which nothing was predicted shifts one bit in and the top bit out, which a later redirect
to that snapshot does not bring back; so it counts among the `K`. -/
theorem ghr_exact {ghrSize K : Nat} {m : HistoryManager β} {history : List Bool}
    {snapshots : List Snapshot} (run : HistoryRun D ghrSize K true m history snapshots)
    (small : ghrSize ≤ 2 ^ 31) :
    ∀ s ∈ m.histories,
      (∀ i, i < ghrSize - K → D.test s.ghr i = history.getD i false) ∧
        (ghrSize ≤ 64 → ∃ block, s.getLatestBlock D = some block) ∧
          ∀ block, s.getLatestBlock D = some block →
            (∀ i, i < 64 → i < ghrSize - K → block.getLsbD i = history.getD i false) ∧
              ∀ histBits, histBits ≤ ghrSize - K → histBits < 32 →
                ∀ i, (gshareGhist histBits block).getLsbD i =
                  (decide (i < histBits) && history.getD i false) := by
  intro s mem
  have low : ∀ i, i < ghrSize - K → D.test s.ghr i = history.getD i false := by
    intro i inside
    obtain ⟨peak, inv⟩ := run.inv (by omega) (by omega)
    exact (inv.holds s mem).window.low inv.near inside
  refine ⟨low, fun fits => exists_latestBlock (run.size s mem ▸ fits), fun block read => ?_⟩
  have bit : ∀ i, i < 64 → i < ghrSize - K → block.getLsbD i = history.getD i false :=
    fun i word inside => (D.toUlong_bit read i word).trans (low i inside)
  refine ⟨bit, fun histBits few word i => ?_⟩
  rw [getLsbD_gshareGhist histBits word]
  by_cases inside : i < histBits
  · rw [bit i (by omega) (by omega)]
  · simp [inside]

/-! ### Where the last bits are lost -/

/-- A number of taken branches, predicted one after the other. -/
def takenTimes : Nat → HistoryManager β → HistoryManager β
  | 0, m => m
  | n + 1, m =>
      let m := takenTimes n m
      m.update D true true .cond m.getMeta

/-- A run may be followed by `n` taken branches. -/
theorem HistoryRun.takenTimes {ghrSize K : Nat} {strict : Bool} {m : HistoryManager β}
    {history : List Bool} {snapshots : List Snapshot}
    (run : HistoryRun D ghrSize K strict m history snapshots) (n : Nat) :
    HistoryRun D ghrSize K strict (takenTimes D n m) (List.replicate n true ++ history)
      (snapshots.map fun s => { s with made := s.made + n }) := by
  induction n with
  | zero =>
      have same : (snapshots.map fun s => { s with made := s.made + 0 }) = snapshots :=
        List.map_id' snapshots
      rw [same]
      exact run
  | succ n ih =>
      have next := ih.predict true .cond
      rw [countAfter, if_pos rfl, List.map_map] at next
      exact next

/-- What `n` taken branches leave. -/
theorem exists_takenTimes (n : Nat) (t : Ghr β) :
    ∃ s, takenTimes D n ⟨[t]⟩ = ⟨[s]⟩ ∧ D.size s.ghr = D.size t.ghr ∧
      s.ghrIdx = t.ghrIdx + BitVec.ofNat 32 n := by
  induction n with
  | zero => exact ⟨t, rfl, rfl, (BitVec.add_zero _).symm⟩
  | succ n ih =>
      obtain ⟨s, same, size, idx⟩ := ih
      refine ⟨s.extend D true, by rw [takenTimes, same]; rfl, ?_, ?_⟩
      · rw [Ghr.extend, D.size_set, D.size_shiftLeft, size]
      · rw [Ghr.extend, idx, BitVec.ofNat_add, BitVec.add_assoc]
        rfl

/-- A run of taken branches alone. -/
theorem holds_takenTimes {ghrSize n : Nat} (nonempty : 0 < ghrSize) {s : Ghr β}
    (same : takenTimes D n ⟨[Ghr.afterLoad D ghrSize]⟩ = ⟨[s]⟩) :
    ∃ peak, peak ≤ n ∧ s.Holds D ghrSize peak (List.replicate n true) := by
  have start : HistoryRun D ghrSize 0 true ⟨[Ghr.afterLoad D ghrSize]⟩ [] [] := .afterLoad 1
  have run := start.takenTimes D n
  obtain ⟨peak, inv⟩ := run.inv nonempty (by decide)
  have near := inv.near
  rw [List.append_nil] at near
  rw [List.length_replicate] at near
  have held := inv.holds s (by
    rw [same]
    exact List.mem_singleton_self s)
  rw [List.append_nil] at held
  exact ⟨peak, near, held⟩

/-- A redirect to the newest snapshot. -/
theorem HistoryRun.redirectNewest {ghrSize K : Nat} {strict : Bool} {m : HistoryManager β}
    {history : List Bool} {snapshot : Snapshot} {older : List Snapshot}
    (before : HistoryRun D ghrSize K strict m history (snapshot :: older)) (taken : Bool)
    (type : InstType) (few : snapshot.made ≤ K) :
    HistoryRun D ghrSize K strict (m.update D false taken type snapshot.metas)
      (extendHistory type taken (history.drop (history.length - snapshot.depth)))
      (countAfter (strict = true ∧ type = .cond ∧ snapshot.made = 0) (snapshot :: older)) := by
  have split : HistoryRun D ghrSize K strict m history ([] ++ snapshot :: older) := before
  exact split.redirect taken type few

/-- A taken branch, then two redirects of a branch that no prediction was made for: the first
finds it is conditional, the second that it traps.  The newest bit is lost. -/
theorem historyRun_twoRedirects :
    ∃ m snapshots, HistoryRun DynamicBitset.ofBits 1 0 false m [true] snapshots ∧
      ∃ s ∈ m.histories, DynamicBitset.ofBits.test s.ghr 0 = false := by
  have start : HistoryRun DynamicBitset.ofBits 1 0 false _ [] [] := .afterLoad 1
  have branch := (start.predict true .cond).getMeta
  have first := branch.redirectNewest _ true .cond (Nat.le_refl 0)
  exact ⟨_, _, first.redirectNewest _ false .int (Nat.le_refl 0),
    _, List.mem_singleton_self _, rfl⟩

/-- A taken branch, and a redirect over `2 ^ 31` more; their number is a negative `int`. -/
theorem historyRun_longRollback {n : Nat} (long : n = 2 ^ 31) :
    ∃ m snapshots, HistoryRun D (n + 1) n false m [true] snapshots ∧
      ∃ s ∈ m.histories, D.test s.ghr 0 = false := by
  have start : HistoryRun D (n + 1) n false ⟨List.replicate 1 (Ghr.afterLoad D (n + 1))⟩ [] [] :=
    .afterLoad 1
  have run := ((start.predict true .cond).getMeta).takenTimes D n
  have last := run.redirectNewest _ false .int (Nat.le_of_eq (Nat.zero_add _))
  have back : extendHistory .int false ((List.replicate n true ++ [true]).drop
      ((List.replicate n true ++ [true]).length - 1)) = [true] := by
    simp [extendHistory]
  obtain ⟨s, same, size, idx⟩ := exists_takenTimes D n ((Ghr.afterLoad D (n + 1)).extend D true)
  have whole : D.size s.ghr = n + 1 := by
    rw [size, Ghr.extend, D.size_set, D.size_shiftLeft]
    exact D.size_zeros (n + 1)
  have alone : (HistoryManager.mk (List.replicate 1 (Ghr.afterLoad D (n + 1)))).update D true true
      .cond [(Ghr.afterLoad D (n + 1)).getMeta] =
        ⟨[(Ghr.afterLoad D (n + 1)).extend D true]⟩ := rfl
  refine ⟨_, _, back ▸ last, ⟨D.shiftRight s.ghr
    ((s.ghrIdx - (1 : BitVec 32)).signExtend 64).toNat, 1⟩, ?_, ?_⟩
  · change _ ∈ ((takenTimes D n (HistoryManager.update D true true .cond
      [(Ghr.afterLoad D (n + 1)).getMeta] _)).update D false false .int
        [⟨(1 : BitVec 32)⟩]).histories
    rw [alone, same]
    exact List.mem_singleton_self _
  · have shift : ((s.ghrIdx - (1 : BitVec 32)).signExtend 64).toNat = 2 ^ 64 - 2 ^ 31 := by
      have first : ((Ghr.afterLoad D (n + 1)).extend D true).ghrIdx = 1 := rfl
      rw [idx, first, long]
      decide
    rw [D.test_shiftRight, shift]
    exact D.test_of_size_le (by omega)

/-- After 65 taken branches the bits are no `unsigned long`. -/
theorem historyRun_overflow :
    ∃ m snapshots, HistoryRun D 65 0 false m (List.replicate 65 true) snapshots ∧
      ∃ s ∈ m.histories, s.getLatestBlock D = none := by
  have start : HistoryRun D 65 0 false ⟨List.replicate 1 (Ghr.afterLoad D 65)⟩ [] [] :=
    .afterLoad 1
  have run := start.takenTimes D 65
  rw [List.append_nil, List.replicate_one] at run
  obtain ⟨s, same, -⟩ := exists_takenTimes D 65 (Ghr.afterLoad D 65)
  obtain ⟨peak, near, held⟩ := holds_takenTimes D (by decide) same
  rw [same] at run
  refine ⟨_, _, run, s, List.mem_singleton_self s, D.toUlong_eq_none.2 ⟨64, Nat.le_refl 64, ?_⟩⟩
  have within : peak ≤ (List.replicate 65 true).length + 0 := by simpa using near
  exact held.window.low within (by decide)

/-- Redirects of branches that were not predicted, shifts that are no `int`, and bits that are no
`unsigned long` each lose the history. -/
theorem not_ghr_exact :
    (∃ m snapshots, HistoryRun DynamicBitset.ofBits 1 0 false m [true] snapshots ∧
        ∃ s ∈ m.histories, DynamicBitset.ofBits.test s.ghr 0 = false) ∧
      (∃ m snapshots, HistoryRun DynamicBitset.ofBits (2 ^ 31 + 1) (2 ^ 31) false m [true]
          snapshots ∧
        ∃ s ∈ m.histories, DynamicBitset.ofBits.test s.ghr 0 = false) ∧
      ∃ m snapshots, HistoryRun DynamicBitset.ofBits 65 0 false m (List.replicate 65 true)
          snapshots ∧
        ∃ s ∈ m.histories, s.getLatestBlock DynamicBitset.ofBits = none :=
  ⟨historyRun_twoRedirects, historyRun_longRollback .ofBits rfl, historyRun_overflow .ofBits⟩

/-- In a run with a mispredicted branch, 63 of the 64 bits are right. -/
theorem ghr_exact_mispredicted :
    ∃ m : HistoryManager (Nat × (Nat → Bool)), ∃ s ∈ m.histories,
      ∀ i, i < 64 - 1 → DynamicBitset.ofBits.test s.ghr i = [false].getD i false := by
  have start : HistoryRun DynamicBitset.ofBits 64 1 true _ [] [] := .afterLoad 1
  have branch := start.getMeta.predict true .cond
  have repaired := branch.redirectNewest _ false .cond (Nat.le_refl 1)
  exact ⟨_, _, List.mem_singleton_self _,
    (ghr_exact .ofBits repaired (by decide) _ (List.mem_singleton_self _)).1⟩

end CPUDelaySim
