import CPUDelaySim.Pred.History
import CPUDelaySim.Pred.Ras

/-!
# Layered prediction

`Predictor::predict` of `pred/predictor.cpp`.  The predictors are grouped by their delay; all of
them predict in the first call, and the answer is held back for as many calls as the delay of the
last layer that changed the predicted address.

`predict` advances `meta_idx` before it reads `taken`, so the direction it returns is what an
older prediction left in the next record.  A layer that takes back a direction leaves the address
of the layer before.

Every call appends what it does to a log, which is not in the source; `Reached` empties it where
a prediction ends.

`LayerState.Alike` is what makes "as if each predictor were asked in turn" a statement about the
loop: two states the predictors cannot tell apart stay so, whatever the loop keeps in the record
between the layers.  With it `layers_stream` replaces the loop by `answered`, and `LastChange` is
the layer that decides how long the answer is held back.

`Waits` is the invariant while the answer is held back: record and history are what one `compute`
left, and the calls since have counted down.  The conditions of `predict_iff` (`NextAgrees`,
`GoesStraight`) are about the state before the call.
-/

namespace CPUDelaySim

/-- `struct BranchStream`, with the length of the instruction. -/
structure SizedStream extends BranchStream where
  size : BitVec 32

/-- `class BP`: what a predictor does to the stream, its entry of the record and the state of the
predictors. -/
structure Bp (β σ μ : Type) where
  delay : Nat
  predict : HistoryManager β → SizedStream → μ → σ → SizedStream × μ × σ
  redirect (realTaken : Bool) (pc : Word) (size : BitVec 32) (target : Word) (type : InstType) :
    μ → σ → σ

/-- The members of `class Predictor` that `load` and `afterLoad` set, with the assertion on the
delays. -/
structure PredictorConfig (β σ μ : Type) where
  retireSize : Nat
  bps : List (Bp β σ μ)
  positive : 0 < retireSize
  grouped : List.IsChain (fun pre delay => delay = pre ∨ delay = pre + 1) (0 :: bps.map Bp.delay)

/-- `Predictor::MetaInfo`. -/
structure PredictRecord (μ : Type) where
  metas : Nat → μ
  historyMeta : List GhrMeta
  stream : SizedStream
  predAddr : Word
  taken : Bool

/-- `class Predictor`, with the state of its predictors. -/
structure PredictorState (β σ μ : Type) where
  metas : Nat → PredictRecord μ
  metaIdx : Nat
  bubble : Nat
  predValid : Bool
  history : HistoryManager β
  bpState : σ

/-- What `predict` returns if its result is not -1. -/
structure PredictOutput where
  res : Nat
  nextPc : Word
  size : Byte
  taken : Bool

variable {β σ μ : Type}

namespace PredictorConfig

/-- `bp_layers[i]`. -/
def layer (C : PredictorConfig β σ μ) (i : Nat) : List (Bp β σ μ) :=
  C.bps.filter fun bp => bp.delay = i

/-- `max_delay`. -/
def maxDelay (C : PredictorConfig β σ μ) : Nat := (C.bps.map Bp.delay).foldl max 0

end PredictorConfig

/-- The variables of the loop over the layers. -/
structure LayerState (σ μ : Type) where
  stream : SizedStream
  metas : Nat → μ
  bpState : σ
  idx : Nat
  predAddr : Word
  taken : Bool
  bubble : Nat

/-- The address in a record before the first layer. -/
def noAddr : Word := 0xdeadbeefdeadbeef

/-- The `switch` in the loop: the address and the direction of a stream. -/
def settle (stream : SizedStream) (predAddr : Word) : Word × Bool :=
  match stream.type with
  | .cond => (if stream.taken then stream.target else predAddr, stream.taken)
  | .direct | .push => (stream.target, true)
  | .indCall | .indPush | .indirect =>
      (if stream.indv then stream.indTarget else stream.target, true)
  | .pop | .popPush => (if stream.rasv then stream.rasTarget else stream.target, true)
  | _ => (predAddr, false)

/-- `bp_layers[i][j]->predict`. -/
def LayerState.predictOne (history : HistoryManager β) (ls : LayerState σ μ) (bp : Bp β σ μ) :
    LayerState σ μ :=
  let (stream, metaInfo, bpState) := bp.predict history ls.stream (ls.metas ls.idx) ls.bpState
  { ls with
    stream := stream
    metas := Function.update ls.metas ls.idx metaInfo
    bpState := bpState
    idx := ls.idx + 1 }

/-- A turn of the loop over the layers. -/
def LayerState.predictLayer (C : PredictorConfig β σ μ) (history : HistoryManager β) (i : Nat)
    (ls : LayerState σ μ) : LayerState σ μ :=
  let prePc := ls.predAddr
  let ls := (C.layer i).foldl (LayerState.predictOne history) ls
  let (predAddr, taken) := settle ls.stream ls.predAddr
  { ls with
    predAddr := predAddr
    taken := taken
    bubble := if prePc ≠ predAddr then i else ls.bubble }

namespace PredictorState

/-- The stream and the record before the loop. -/
def startLayers (pc : Word) (s : PredictorState β σ μ) : LayerState σ μ :=
  let info := s.metas s.metaIdx
  { stream := { info.stream with
      pc := pc, type := .int, taken := false, indv := false, rasv := false }
    metas := info.metas
    bpState := s.bpState
    idx := 0
    predAddr := noAddr
    taken := info.taken
    bubble := s.bubble }

/-- The loop, after its first layers. -/
def layers (C : PredictorConfig β σ μ) (pc : Word) (s : PredictorState β σ μ) :
    Nat → LayerState σ μ
  | 0 => s.startLayers pc
  | i + 1 => (layers C pc s i).predictLayer C s.history i

/-- The part of `predict` that predicts. -/
def compute (D : DynamicBitset β) (C : PredictorConfig β σ μ) (pc : Word)
    (s : PredictorState β σ μ) : PredictorState β σ μ :=
  let historyMeta := s.history.getMeta
  let ls := s.layers C pc (C.maxDelay + 1)
  -- The address that stands for none is a 64-bit constant, so a target may be mistaken for it.
  let predAddr := if ls.predAddr = noAddr then pc + ls.stream.size.signExtend 64 else ls.predAddr
  { s with
    metas := Function.update s.metas s.metaIdx
      ⟨ls.metas, historyMeta, ls.stream, predAddr, ls.taken⟩
    bubble := ls.bubble
    history := s.history.update D true ls.stream.taken ls.stream.type historyMeta
    bpState := ls.bpState }

/-- What `predict` does before it may return the record. -/
def advance (D : DynamicBitset β) (C : PredictorConfig β σ μ) (pc : Word)
    (s : PredictorState β σ μ) : PredictorState β σ μ :=
  let s :=
    if s.bubble ≠ 0 then { s with bubble := s.bubble - 1 }
    else if !s.predValid then s.compute D C pc
    else s
  { s with predValid := s.bubble == 0 }

/-- `Predictor::predict`. -/
def predict (D : DynamicBitset β) (C : PredictorConfig β σ μ) (pc : Word) (stall : Bool)
    (s : PredictorState β σ μ) : Option PredictOutput × PredictorState β σ μ :=
  let s := s.advance D C pc
  -- A stall holds the record back, not its computation.
  if !stall && s.predValid then
    let info := s.metas s.metaIdx
    let res := s.metaIdx
    let s := { s with metaIdx := (s.metaIdx + 1) % C.retireSize, predValid := false }
    -- `meta_idx` has moved on.
    let taken := (s.metas s.metaIdx).taken
    (some ⟨res, info.predAddr, info.stream.size.setWidth 8, taken⟩, s)
  else (none, s)

/-- The redirects of the predictors, each with its entry of the record. -/
def redirectAll (redirect : Bp β σ μ → μ → σ → σ) (metas : Nat → μ) :
    List (Bp β σ μ) → Nat → σ → σ
  | [], _, bpState => bpState
  | bp :: rest, i, bpState =>
    redirectAll redirect metas rest (i + 1) (redirect bp (metas i) bpState)

/-- `Predictor::redirect`. -/
def redirect (D : DynamicBitset β) (C : PredictorConfig β σ μ) (realTaken : Bool) (realPc : Word)
    (size : BitVec 32) (target : Word) (type : InstType) (metaIdx : Nat)
    (s : PredictorState β σ μ) : PredictorState β σ μ :=
  let info := s.metas metaIdx
  { s with
    history := s.history.update D false realTaken type info.historyMeta
    bpState := redirectAll (fun bp => bp.redirect realTaken realPc size target type) info.metas
      C.bps 0 s.bpState
    -- The prediction in progress is dropped, its record stays at `meta_idx`.
    bubble := 0
    predValid := false }

end PredictorState

/-! ### Runs -/

/-- What a call of `predict` does. -/
inductive PredictEvent (β σ μ : Type)
  /-- The record `meta_idx` is computed from this state. -/
  | computed (pc : Word) (before : PredictorState β σ μ)
  | historyUpdated
  | bubble

/-- What the next call of `predict` does. -/
def PredictorState.events (pc : Word) (s : PredictorState β σ μ) : List (PredictEvent β σ μ) :=
  if s.bubble ≠ 0 then [.bubble]
  else if !s.predValid then [.computed pc s, .historyUpdated]
  else []

/-- A run of predictions and redirects, with the log of the prediction in progress.  The records
come from `malloc`. -/
inductive PredictorReached (D : DynamicBitset β) (C : PredictorConfig β σ μ) :
    PredictorState β σ μ → List (PredictEvent β σ μ) → Prop
  | afterLoad (metas : Nat → PredictRecord μ) (history : HistoryManager β) (bpState : σ) :
      PredictorReached D C ⟨metas, 0, 0, false, history, bpState⟩ []
  | held {s s' log} (pc : Word) (stall : Bool) (before : PredictorReached D C s log)
      (called : s.predict D C pc stall = (none, s')) :
      PredictorReached D C s' (log ++ s.events pc)
  | returned {s s' log output} (pc : Word) (stall : Bool) (before : PredictorReached D C s log)
      (called : s.predict D C pc stall = (some output, s')) : PredictorReached D C s' []
  | redirect {s log} (realTaken : Bool) (realPc : Word) (size : BitVec 32) (target : Word)
      (type : InstType) (metaIdx : Nat) (before : PredictorReached D C s log) :
      PredictorReached D C (s.redirect D C realTaken realPc size target type metaIdx) []

/-! ### The layers -/

/-- The target a stream is taken to, if it is. -/
def offer (stream : SizedStream) : Option Word :=
  if (settle stream noAddr).2 then some (settle stream noAddr).1 else none

/-- A prediction that is offered is settled on, else the address of before. -/
theorem settle_eq (stream : SizedStream) (predAddr : Word) :
    settle stream predAddr = ((offer stream).getD predAddr, (offer stream).isSome) := by
  unfold offer settle
  cases stream.type with
  | cond => cases taken : stream.taken <;> simp
  | _ => rfl

/-- What the predictors of the first `n` layers leave in the stream when each is asked in turn, and
nothing is made of what they say. -/
def PredictorState.answered (C : PredictorConfig β σ μ) (pc : Word) (s : PredictorState β σ μ)
    (n : Nat) : SizedStream :=
  (((List.range n).flatMap C.layer).foldl (LayerState.predictOne s.history)
    (s.startLayers pc)).stream

/-- The stream that all the predictors leave. -/
def PredictorState.answer (C : PredictorConfig β σ μ) (pc : Word) (s : PredictorState β σ μ) :
    SizedStream := s.answered C pc (C.maxDelay + 1)

/-- The layer that changed an address last, of `n` layers; 0 if only the first one did, or none. -/
def LastChange (addr : Nat → Word) (n layer : Nat) : Prop :=
  layer < n ∧ (layer = 0 ∨ addr (layer + 1) ≠ addr layer) ∧
    ∀ i, layer < i → i < n → addr (i + 1) = addr i

/-- The last layer that has changed the address, with one layer more. -/
theorem LastChange.succ {addr : Nat → Word} {n layer : Nat} (last : LastChange addr n layer) :
    LastChange addr (n + 1) (if addr n ≠ addr (n + 1) then n else layer) := by
  obtain ⟨inside, changed, kept⟩ := last
  by_cases same : addr n = addr (n + 1)
  · rw [if_neg (not_not.2 same)]
    refine ⟨by omega, changed, fun i after before => ?_⟩
    rcases Nat.lt_or_eq_of_le (Nat.le_of_lt_succ before) with before | rfl
    · exact kept i after before
    · exact same.symm
  · rw [if_pos same]
    exact ⟨by omega, .inr (Ne.symm same), fun i after before => by omega⟩

/-- Two states of the loop that the predictors cannot tell apart. -/
structure LayerState.Alike (ls ls' : LayerState σ μ) : Prop where
  stream : ls.stream = ls'.stream
  metas : ls.metas = ls'.metas
  bpState : ls.bpState = ls'.bpState
  idx : ls.idx = ls'.idx

namespace PredictorState

variable (D : DynamicBitset β) (C : PredictorConfig β σ μ) (pc : Word)
  (s : PredictorState β σ μ)

/-- The predictors of a layer do not touch what the loop keeps of the record. -/
theorem foldl_predictOne (history : HistoryManager β) (bps : List (Bp β σ μ))
    (ls : LayerState σ μ) :
    (bps.foldl (LayerState.predictOne history) ls).predAddr = ls.predAddr ∧
      (bps.foldl (LayerState.predictOne history) ls).bubble = ls.bubble := by
  induction bps generalizing ls with
  | nil => exact ⟨rfl, rfl⟩
  | cons bp rest ih => exact ih (ls.predictOne history bp)

/-- The predictors do not see what the loop makes of their answers. -/
theorem foldl_predictOne_congr (history : HistoryManager β) (bps : List (Bp β σ μ))
    {ls ls' : LayerState σ μ} (alike : LayerState.Alike ls ls') :
    LayerState.Alike (bps.foldl (LayerState.predictOne history) ls)
      (bps.foldl (LayerState.predictOne history) ls') := by
  induction bps generalizing ls ls' with
  | nil => exact alike
  | cons bp rest ih =>
      obtain ⟨stream, metas, bpState, idx⟩ := alike
      refine ih ?_
      unfold LayerState.predictOne
      rw [stream, metas, bpState, idx]
      exact ⟨rfl, rfl, rfl, rfl⟩

/-- The loop leaves the stream that the predictors leave. -/
theorem layers_alike (n : Nat) :
    LayerState.Alike (s.layers C pc n)
      (((List.range n).flatMap C.layer).foldl (LayerState.predictOne s.history)
        (s.startLayers pc)) := by
  induction n with
  | zero => exact ⟨rfl, rfl, rfl, rfl⟩
  | succ n ih =>
      rw [List.range_succ, List.flatMap_append, List.foldl_append, List.flatMap_singleton]
      obtain ⟨stream, metas, bpState, idx⟩ := foldl_predictOne_congr s.history (C.layer n) ih
      exact ⟨stream, metas, bpState, idx⟩

/-- What the first layers have answered. -/
theorem layers_stream (n : Nat) : (s.layers C pc n).stream = s.answered C pc n :=
  (s.layers_alike C pc n).stream

/-- A layer settles on the stream it leaves. -/
theorem layers_succ (i : Nat) :
    (s.layers C pc (i + 1)).predAddr =
        (offer (s.answered C pc (i + 1))).getD (s.layers C pc i).predAddr ∧
      (s.layers C pc (i + 1)).taken = (offer (s.answered C pc (i + 1))).isSome ∧
      (s.layers C pc (i + 1)).bubble =
        if (s.layers C pc i).predAddr ≠ (s.layers C pc (i + 1)).predAddr then i
        else (s.layers C pc i).bubble := by
  obtain ⟨addr, bubble⟩ := foldl_predictOne s.history (C.layer i) (s.layers C pc i)
  simp only [← layers_stream, layers, LayerState.predictLayer, settle_eq, addr, bubble, and_self]

/-- The bubbles after the loop are the layer that changed the address last. -/
theorem lastChange_layers (idle : s.bubble = 0) (n : Nat) :
    LastChange (fun i => (s.layers C pc i).predAddr) (n + 1) (s.layers C pc (n + 1)).bubble := by
  induction n with
  | zero =>
      have bubble := (s.layers_succ C pc 0).2.2
      have zero : (s.layers C pc (0 + 1)).bubble = 0 := by
        rw [bubble]
        split
        · rfl
        · exact idle
      rw [zero]
      exact ⟨Nat.one_pos, .inl rfl, fun i after before => by omega⟩
  | succ n ih =>
      rw [(s.layers_succ C pc (n + 1)).2.2]
      exact ih.succ

/-- The targets the first layers leave, in their order. -/
def offers (n : Nat) : List Word :=
  (List.range n).filterMap fun i => offer (s.answered C pc (i + 1))

/-- The address is the last target a layer left. -/
theorem predAddr_layers (n : Nat) :
    (s.layers C pc n).predAddr = (s.offers C pc n).getLast?.getD noAddr := by
  induction n with
  | zero => rfl
  | succ n ih =>
      rw [(s.layers_succ C pc n).1, ih, offers, offers, List.range_succ, List.filterMap_append]
      cases left : offer (s.answered C pc (n + 1)) with
      | none => simp [left]
      | some target => simp [left]

/-- The next record has the direction that this prediction settles on, or is the same record. -/
def NextAgrees : Prop :=
  C.retireSize = 1 ∨
    (s.metas ((s.metaIdx + 1) % C.retireSize)).taken = (offer (s.answer C pc)).isSome

/-- If the last layer offers no target, the last one offered before it is the next instruction,
or the address that stands for none. -/
def GoesStraight : Prop :=
  offer (s.answer C pc) = none → ∀ target, (s.offers C pc C.maxDelay).getLast? = some target →
    target = noAddr ∨ target = pc + (s.answer C pc).size.signExtend 64

/-- The history that a prediction leaves, updated once with what the predictors say. -/
def predicted : HistoryManager β :=
  s.history.update D true (s.answer C pc).taken (s.answer C pc).type s.history.getMeta

/-- The record at `meta_idx` was computed once, and has waited for `bubbles` calls. -/
structure Waits (log : List (PredictEvent β σ μ)) (pc : Word) (before : PredictorState β σ μ)
    (bubbles : Nat) : Prop where
  log : log = .computed pc before :: .historyUpdated :: List.replicate bubbles .bubble
  idle : before.bubble = 0
  idx : before.metaIdx = s.metaIdx
  record : s.metas s.metaIdx = (before.compute D C pc).metas s.metaIdx
  others : ∀ i ≠ s.metaIdx, s.metas i = before.metas i
  history : s.history = before.predicted D C pc
  layer : bubbles + s.bubble = (before.layers C pc (C.maxDelay + 1)).bubble
  valid : s.predValid = (s.bubble == 0)

/-- The invariant of a run. -/
structure Inv (log : List (PredictEvent β σ μ)) : Prop where
  inside : s.metaIdx < C.retireSize
  phase : log = [] ∧ s.bubble = 0 ∧ s.predValid = false ∨
    ∃ pc before bubbles, s.Waits D C log pc before bubbles

section Run

variable {D C s} {log : List (PredictEvent β σ μ)}

/-- No call touches another record. -/
theorem advance_other : (s.advance D C pc).metaIdx = s.metaIdx ∧
    ∀ i ≠ s.metaIdx, (s.advance D C pc).metas i = s.metas i := by
  unfold advance
  split
  · exact ⟨rfl, fun _ _ => rfl⟩
  · split
    · exact ⟨rfl, fun i other => Function.update_of_ne other ..⟩
    · exact ⟨rfl, fun _ _ => rfl⟩

/-- What is computed: the history is updated with the stream of the record. -/
theorem compute_history (D : DynamicBitset β) (C : PredictorConfig β σ μ) (pc : Word)
    (s : PredictorState β σ μ) : (s.compute D C pc).history = s.predicted D C pc := by
  rw [predicted, answer, ← layers_stream]
  rfl

/-- The history moves in the call that computes the record, and in no other. -/
theorem advance_history : (s.advance D C pc).history =
    if s.bubble = 0 ∧ s.predValid = false then s.predicted D C pc else s.history := by
  rw [← compute_history]
  unfold PredictorState.advance
  by_cases idle : s.bubble = 0
  · cases valid : s.predValid with
    | false => simp [idle]
    | true => simp [idle]
  · simp [idle]

/-- A call computes the record or lets it wait. -/
theorem Inv.advance (inv : s.Inv D C log) (pc : Word) :
    ∃ pc₀ before bubbles, (s.advance D C pc).Waits D C (log ++ s.events pc) pc₀ before bubbles := by
  rcases inv.phase with ⟨rfl, idle, invalid⟩ | ⟨pc₀, before, bubbles, waits⟩
  · refine ⟨pc, s, 0, ?_⟩
    have computes : s.advance D C pc =
        { s.compute D C pc with predValid := (s.compute D C pc).bubble == 0 } := by
      simp [PredictorState.advance, idle, invalid]
    have events : s.events pc = [.computed pc s, .historyUpdated] := by
      simp [PredictorState.events, idle, invalid]
    rw [computes, events]
    exact ⟨rfl, idle, rfl, rfl, fun i other => Function.update_of_ne other ..,
      compute_history D C pc s, Nat.zero_add _, rfl⟩
  · by_cases more : s.bubble = 0
    · have valid : s.predValid = true := by rw [waits.valid, more]; rfl
      have stays : s.advance D C pc = s := by
        have whole : ({ s with predValid := s.bubble == 0 } : PredictorState β σ μ) = s := by
          rw [← waits.valid]
        rw [PredictorState.advance, if_neg (not_not.2 more), valid]
        exact whole
      have events : s.events pc = [] := by simp [PredictorState.events, more, valid]
      rw [stays, events, List.append_nil]
      exact ⟨pc₀, before, bubbles, waits⟩
    · refine ⟨pc₀, before, bubbles + 1, ?_⟩
      have waited : s.advance D C pc =
          { s with bubble := s.bubble - 1, predValid := s.bubble - 1 == 0 } := by
        simp [PredictorState.advance, more]
      have events : s.events pc = [.bubble] := by simp [PredictorState.events, more]
      have layer := waits.layer
      rw [waited, events, waits.log]
      refine ⟨?_, waits.idle, waits.idx, waits.record, waits.others, waits.history, ?_, rfl⟩
      · rw [List.replicate_succ']
        rfl
      · dsimp only
        omega

/-- A call that returns nothing leaves what it advanced to. -/
theorem predict_none {stall : Bool} {s' : PredictorState β σ μ}
    (called : s.predict D C pc stall = (none, s')) : s' = s.advance D C pc := by
  unfold predict at called
  dsimp only at called
  split at called
  · cases called
  · cases called
    rfl

/-- What a call that returns an index returns. -/
theorem predict_some {stall : Bool} {s' : PredictorState β σ μ} {output : PredictOutput}
    (called : s.predict D C pc stall = (some output, s')) :
    let t := s.advance D C pc
    let next := (s.metaIdx + 1) % C.retireSize
    t.bubble = 0 ∧
      s' = { t with metaIdx := next, predValid := false } ∧
      output = ⟨s.metaIdx, (t.metas s.metaIdx).predAddr,
        (t.metas s.metaIdx).stream.size.setWidth 8, (t.metas next).taken⟩ := by
  have idx : (s.advance D C pc).metaIdx = s.metaIdx := (advance_other pc).1
  unfold predict at called
  dsimp only at called
  rw [idx] at called
  split at called
  next answers =>
      have valid := (Bool.and_eq_true_iff.1 answers).2
      cases called
      exact ⟨by simpa [PredictorState.advance] using valid, rfl, rfl⟩
  next => cases called

end Run

end PredictorState

/-- The record in flight: its stream, its direction, and where it goes if it is not taken. -/
theorem PredictorState.compute_record (D : DynamicBitset β) (C : PredictorConfig β σ μ) (pc : Word)
    (before : PredictorState β σ μ) :
    let info := (before.compute D C pc).metas before.metaIdx
    info.stream = before.answer C pc ∧ info.taken = (offer (before.answer C pc)).isSome ∧
      ((info.taken = false → info.predAddr = pc + info.stream.size.signExtend 64) ↔
        before.GoesStraight C pc) := by
  obtain ⟨addr, taken, -⟩ := before.layers_succ C pc C.maxDelay
  have earlier := before.predAddr_layers C pc C.maxDelay
  have stream : (before.layers C pc (C.maxDelay + 1)).stream = before.answer C pc :=
    before.layers_stream C pc (C.maxDelay + 1)
  rw [show before.answered C pc (C.maxDelay + 1) = before.answer C pc from rfl] at addr taken
  simp only [compute, GoesStraight, Function.update_self, taken, stream, true_and]
  cases left : offer (before.answer C pc) with
  | some target => simp
  | none =>
      rw [left, Option.getD_none, earlier] at addr
      rw [addr]
      cases last : (before.offers C pc C.maxDelay).getLast? with
      | none => simp
      | some target =>
          by_cases unset : target = noAddr
          · simp [unset]
          · simp [unset]

/-- The invariant holds in every state that is reached. -/
theorem PredictorReached.inv {D : DynamicBitset β} {C : PredictorConfig β σ μ}
    {s : PredictorState β σ μ} {log : List (PredictEvent β σ μ)}
    (reached : PredictorReached D C s log) : s.Inv D C log := by
  induction reached with
  | afterLoad metas history bpState => exact ⟨C.positive, .inl ⟨rfl, rfl, rfl⟩⟩
  | held pc stall before called ih =>
      obtain rfl := PredictorState.predict_none pc called
      refine ⟨?_, .inr (ih.advance pc)⟩
      rw [(PredictorState.advance_other pc).1]
      exact ih.inside
  | returned pc stall before called ih =>
      obtain ⟨empty, rfl, -⟩ := PredictorState.predict_some pc called
      exact ⟨Nat.mod_lt _ C.positive, .inl ⟨rfl, empty, rfl⟩⟩
  | redirect realTaken realPc size target type metaIdx before ih =>
      exact ⟨ih.inside, .inl ⟨rfl, rfl, rfl⟩⟩

/-- In every run, a call touches no other record, and moves the history in the call that computes
one, once.  One that returns an index returns the address and the length of that record, which was
computed once and waited for as many calls as the layer that changed its address last.  The
direction it returns is that of the record if and only if, before the record was computed, the next
one had the same, or is the same.  A record that is not taken goes on at the next instruction if
and only if the predictors offer no other target before the last layer. -/
theorem predict_iff {D : DynamicBitset β} {C : PredictorConfig β σ μ} {s s' : PredictorState β σ μ}
    {log : List (PredictEvent β σ μ)} (reached : PredictorReached D C s log) {pc : Word}
    {stall : Bool} {result : Option PredictOutput}
    (called : s.predict D C pc stall = (result, s')) :
    (∀ i ≠ s.metaIdx, s'.metas i = s.metas i) ∧
      s'.history = (if s.bubble = 0 ∧ s.predValid = false then s.predicted D C pc
        else s.history) ∧
      ∀ output ∈ result, ∃ pc₀ before layer,
        let info := s'.metas output.res
        output.res = s.metaIdx ∧ info = (before.compute D C pc₀).metas output.res ∧
          output.nextPc = info.predAddr ∧ output.size = info.stream.size.setWidth 8 ∧
          log ++ s.events pc =
            .computed pc₀ before :: .historyUpdated :: List.replicate layer .bubble ∧
          s'.history = before.predicted D C pc₀ ∧
          LastChange (fun i => (before.layers C pc₀ i).predAddr) (C.maxDelay + 1) layer ∧
          (output.taken = info.taken ↔ before.NextAgrees C pc₀) ∧
          ((info.taken = false → output.nextPc = pc₀ + info.stream.size.signExtend 64) ↔
            before.GoesStraight C pc₀) := by
  have inv := reached.inv
  obtain ⟨idx, other⟩ := PredictorState.advance_other (D := D) (C := C) (s := s) pc
  have history := PredictorState.advance_history (D := D) (C := C) (s := s) pc
  cases result with
  | none =>
      obtain rfl := PredictorState.predict_none pc called
      exact ⟨other, history, fun _ none => nomatch none⟩
  | some output =>
      obtain ⟨empty, rfl, rfl⟩ := PredictorState.predict_some pc called
      obtain ⟨pc₀, before, layer, waits⟩ := inv.advance pc
      have record := waits.record
      rw [idx] at record
      have layers := waits.layer
      rw [empty, Nat.add_zero] at layers
      obtain ⟨-, taken, straight⟩ := before.compute_record D C pc₀
      rw [waits.idx, idx, ← record] at taken straight
      refine ⟨other, history, fun _ same => ?_⟩
      obtain rfl := Option.some.inj same
      refine ⟨pc₀, before, layer, rfl, record, rfl, rfl, waits.log, waits.history, ?_, ?_, straight⟩
      · rw [layers]
        exact before.lastChange_layers C pc₀ waits.idle C.maxDelay
      · rw [taken, PredictorState.NextAgrees, waits.idx, idx]
        by_cases alone : C.retireSize = 1
        · have zero : s.metaIdx = 0 := by have := inv.inside; omega
          have next : (s.metaIdx + 1) % C.retireSize = s.metaIdx := by
            rw [alone, zero]
          refine iff_of_true ?_ (.inl alone)
          rw [next]
          exact taken
        · have next : (s.metaIdx + 1) % C.retireSize ≠ s.metaIdx := by
            have := inv.inside
            rcases Nat.lt_or_eq_of_le (Nat.succ_le_of_lt inv.inside) with before | last
            · rw [Nat.mod_eq_of_lt before]
              omega
            · rw [← Nat.succ_eq_add_one, last, Nat.mod_self]
              omega
          simp only [alone, false_or]
          -- no call of this prediction has touched the next record
          rw [waits.others _ (by rw [idx]; exact next)]

/-- A predictor that takes every branch to one address, and one that takes none. -/
def takes (delay : Nat) (taken : Bool) : Bp (Nat × (Nat → Bool)) Unit Unit where
  delay := delay
  predict _ stream _ _ :=
    ({ stream with type := .cond, taken := taken, target := 0x100, size := 4 }, (), ())
  redirect _ _ _ _ _ _ _ := ()

/-- Ten records, with these predictors. -/
def tenRecords (bps : List (Bp (Nat × (Nat → Bool)) Unit Unit))
    (grouped : List.IsChain (fun pre delay => delay = pre ∨ delay = pre + 1)
      (0 :: bps.map Bp.delay)) : PredictorConfig (Nat × (Nat → Bool)) Unit Unit :=
  ⟨10, bps, by decide, grouped⟩

/-- The predictor before its first call, its records all zero. -/
def zeroPredictor : PredictorState (Nat × (Nat → Bool)) Unit Unit :=
  ⟨fun _ => ⟨fun _ => (), [], ⟨⟨⟨false, false, 0, 0⟩, .int, false, 0, 0⟩, 0⟩, 0, false⟩,
    0, 0, false, ⟨[Ghr.afterLoad .ofBits 64]⟩, ()⟩

/-- A first branch that is taken is reported as not taken.  One that a second layer takes back
goes to the target of the first all the same. -/
theorem not_predict_consistent :
    (let C := tenRecords [takes 0 true] (.cons_cons (.inl rfl) (.singleton _))
      ∃ output s, zeroPredictor.predict .ofBits C 0 false = (some output, s) ∧
        (s.metas output.res).taken = true ∧ output.taken = false) ∧
      let C := tenRecords [takes 0 true, takes 1 false]
        (.cons_cons (.inl rfl) (.cons_cons (.inr rfl) (.singleton _)))
      ∃ output s, zeroPredictor.predict .ofBits C 0 false = (some output, s) ∧
        (s.metas output.res).taken = false ∧ (s.metas output.res).stream.size = 4 ∧
          output.nextPc = 0x100 :=
  ⟨⟨_, _, rfl, rfl, rfl⟩, _, _, rfl, rfl, rfl, rfl⟩

/-- A first branch that is not taken is reported as it is. -/
theorem predict_iff_notTaken :
    let C := tenRecords [takes 0 false] (.cons_cons (.inl rfl) (.singleton _))
    ∃ output s, zeroPredictor.predict .ofBits C 0 false = (some output, s) ∧
      output.taken = (s.metas output.res).taken := by
  have start : PredictorReached .ofBits
      (tenRecords [takes 0 false] (.cons_cons (.inl rfl) (.singleton _))) zeroPredictor [] :=
    .afterLoad _ _ _
  obtain ⟨-, -, returns⟩ := predict_iff start
    (rfl : zeroPredictor.predict .ofBits _ 0 false = (some _, _))
  obtain ⟨pc₀, before, layer, -, -, -, -, logged, -, -, direction, -⟩ := returns _ rfl
  -- the log says from which state the record was computed
  have first : PredictEvent.computed 0 zeroPredictor = .computed pc₀ before :=
    (List.cons.inj logged).1
  cases first
  exact ⟨_, _, rfl, direction.2 (.inr rfl)⟩

end CPUDelaySim
