import CPUDelaySim.Common.DecodeInfo
import Mathlib.Logic.Function.Basic

/-!
# The return address stack

`RAS` of `pred/bp/ras.cpp`, `PipePredictor::predict` and the redirect `frontRedirect` issues
when a prediction is taken.

`RAS::redirect` has a parameter `size`, the length of the instruction, which hides the member
`size`: its pointer goes round at that length, and not at the size of the stack.  An access
outside the array has no result.

Of the predictors in `bps` only `RAS` writes `rasv` and `ras_target`, and none writes `type`
or `pc`; what the others leave in the stream is a parameter (`Guess`).
-/

namespace CPUDelaySim

/-- What the other predictors leave in the stream. -/
structure Guess where
  taken : Bool
  indv : Bool
  target : Word
  indTarget : Word

/-- `struct BranchStream`. -/
structure BranchStream extends Guess where
  type : InstType
  rasv : Bool
  pc : Word
  rasTarget : Word

/-- `RASMeta`. -/
structure RasMeta where
  top : Nat

/-- `class RAS`. -/
structure Ras where
  size : Nat
  ras : Nat → Word
  top : Nat

namespace Ras

/-- `ras[i]`. -/
def read (s : Ras) (i : Nat) : Option Word := if i < s.size then some (s.ras i) else none

/-- `ras[i] = v`. -/
def write (s : Ras) (i : Nat) (v : Word) : Option Ras :=
  if i < s.size then some { s with ras := Function.update s.ras i v } else none

/-- `top == 0 ? size - 1 : top - 1`. -/
def below (size top : Nat) : Nat := if top = 0 then size - 1 else top - 1

@[simp] theorem below_zero (size : Nat) : below size 0 = size - 1 := rfl

@[simp] theorem below_succ (size top : Nat) : below size (top + 1) = top := rfl

/-- `RAS::predict`. -/
def predict (stream : BranchStream) (s : Ras) : Option (BranchStream × Ras × RasMeta) :=
  let metaInfo : RasMeta := ⟨s.top⟩
  let stream := { stream with rasv := true }
  let pushed := stream.pc + BitVec.ofNat 64 s.size
  match stream.type with
  | .popPush => do
      let topIdx := below s.size s.top
      let target ← s.read topIdx
      let s ← s.write topIdx pushed
      return ({ stream with rasTarget := target }, s, metaInfo)
  | .push | .indPush => do
      let s ← s.write s.top pushed
      return (stream, { s with top := (s.top + 1) % s.size }, metaInfo)
  | .pop => do
      let s := { s with top := below s.size s.top }
      let target ← s.read s.top
      return ({ stream with rasTarget := target }, s, metaInfo)
  | _ => some (stream, s, metaInfo)

/-- `RAS::redirect`, where `size` is the length of the instruction. -/
def redirect (pc : Word) (size : Nat) (type : InstType) (metaInfo : RasMeta) (s : Ras) :
    Option Ras :=
  let s := { s with top := metaInfo.top }
  let pushed := pc + BitVec.ofNat 64 size
  match type with
  | .popPush => s.write (below size s.top) pushed
  | .push | .indPush => do
      let s ← s.write s.top pushed
      return { s with top := (s.top + 1) % size }
  | .pop => some { s with top := below size s.top }
  | _ => some s

end Ras

/-- What `PipePredictor::predict` leaves in its `MetaInfo`. -/
structure MetaInfo where
  stream : BranchStream
  predAddr : Word
  taken : Bool
  rasMeta : RasMeta

/-- `PipePredictor::predict`.  Of a member of the stream that was not written the value is that
of an earlier prediction, `old`. -/
def pipePredict (old : Word) (guess : Guess) (pc : Word) (info : DecodeInfo) (s : Ras) :
    Option (MetaInfo × Ras) := do
  let stream : BranchStream := ⟨guess, info.type, false, pc, old⟩
  let (stream, s, rasMeta) ← s.predict stream
  let next := pc + info.instSize.setWidth 64
  let (predAddr, taken) := match info.type with
    | .cond => (if stream.taken then info.dst2.data else next, stream.taken)
    | .direct | .push => (info.dst2.data, true)
    | .indCall | .indPush | .indirect =>
        (if stream.indv then stream.indTarget else stream.target, true)
    | .pop | .popPush => (if stream.rasv then stream.rasTarget else stream.target, true)
    | _ => (next, false)
  return (⟨stream, predAddr, taken, rasMeta⟩, s)

/-- An instruction as `preId` has it after `decode`, with what else goes into its prediction. -/
structure Fetched where
  pc : Word
  info : DecodeInfo
  guess : Guess
  old : Word

/-- The part of `PipelineCPU::preId` that predicts: a prediction that is taken is followed by
`frontRedirect`, which hands it back to the predictor. -/
def preIdPredict (inst : Fetched) (s : Ras) : Option (MetaInfo × Ras) := do
  let (metaInfo, s) ← pipePredict inst.old inst.guess inst.pc inst.info s
  if metaInfo.taken then
    let s ← s.redirect inst.pc inst.info.instSize.toNat inst.info.type metaInfo.rasMeta
    return (metaInfo, s)
  else return (metaInfo, s)

/-- The predictions of a sequence of instructions. -/
def preIdAll : List Fetched → Ras → Option (List MetaInfo × Ras)
  | [], s => some ([], s)
  | inst :: rest, s => do
      let (metaInfo, s) ← preIdPredict inst s
      let (metas, s) ← preIdAll rest s
      return (metaInfo :: metas, s)

end CPUDelaySim
