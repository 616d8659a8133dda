import CPUDelaySim.Pred.Ras
import CPUDelaySim.Riscv.DecodeSpec

/-!
# Calls and returns

The words `decode` classifies as jumps, and code in which calls and returns are well nested: a
forest of calls, each with the code it runs before it returns.  `Code.Runs` are the sequences of
instructions such code gives to the predictor, each with a record `decode` leaves for its word.
-/

namespace CPUDelaySim

open Riscv

/-! ### Instructions -/

/-- The `rvc` flag of a word in memory. -/
def isRvc (word : BitVec 32) : Bool := word &&& 3 != 3

/-- The word `fetch` leaves. -/
def fetchedInst (word : BitVec 32) : BitVec 32 :=
  if isRvc word then (word <<< 16) >>> 16 else word

/-- The body of a word in memory. -/
def bodyOf (word : BitVec 32) : Body := selected (fetchedInst word) (isRvc word)

/-- The bytes the instruction takes. -/
def lenOf (word : BitVec 32) : Nat := if isRvc word then 2 else 4

/-- The type `trans_jal` and `trans_jalr` leave. -/
def jumpType : Body → Option InstType
  | .jal rd _ => some (if rd = 0 then .direct else .push)
  | .jalr rd rs1 _ => jalrType rd rs1
  | _ => none

/-- `info` is what `decode` leaves for the word, read at `pc`. -/
def Decoded (word : BitVec 32) (pc : Word) (info : DecodeInfo) : Prop :=
  ∃ (δ : Type) (P : Platform δ) (arch read after : RiscvArch δ) (paddr value : Word)
    (cached : Bool) (slot : DecodeInfo),
    arch.paddrRead P paddr 4 (slot.inst.setWidth 64) = .ok (value, cached, read) ∧
      value.setWidth 32 = word ∧ arch.decode P pc paddr slot = .ok (after, info)

/-- The body of a jump always succeeds, and sets the type. -/
theorem exec_jump {δ : Type} (P : Platform δ) {body : Body} {type : InstType}
    (jump : jumpType body = some type) (ctx : Ctx δ) :
    ∃ done, body.exec P ctx = .ok done ∧ done.2.info.type = type ∧
      done.2.info.instSize = ctx.info.instSize := by
  cases body with
  | jal rd imm =>
      cases jump
      exact ⟨_, rfl, rfl, rfl⟩
  | jalr rd rs1 imm =>
      have classified : jalrType rd rs1 = some type := jump
      let linked := ctx.setDst0 (.gpr rd) (ctx.arch.pc + ctx.info.instSize.setWidth 64)
      refine ⟨(true, (linked.setData2 (ctx.arch.state.gpr rs1 + imm)).setType type), ?_, rfl, rfl⟩
      simp only [Body.exec, classified]
      rfl
  | _ => cases jump

/-- `decode` of a jump, from the word that is read. -/
theorem decode_jump {δ : Type} {P : Platform δ} {arch read : RiscvArch δ} {word : BitVec 32}
    {paddr value : Word} {cached : Bool} {slot : DecodeInfo} {type : InstType}
    (memory : arch.paddrRead P paddr 4 (slot.inst.setWidth 64) = .ok (value, cached, read))
    (holds : value.setWidth 32 = word) (jump : jumpType (bodyOf word) = some type) (pc : Word) :
    ∃ r, arch.decode P pc paddr slot = .ok r ∧ r.2.type = type ∧
      r.2.instSize.toNat = lenOf word := by
  have fetched : arch.fetch P paddr slot = .ok (isRvc word, read,
      { slot with inst := fetchedInst word, instSize := if isRvc word then 2 else 4 }) := by
    rw [RiscvArch.fetch, memory, ← holds]
    rfl
  obtain ⟨done, ran, typed, sized⟩ := exec_jump P jump (RiscvArch.bodyCtx read pc paddr
    { slot with inst := fetchedInst word, instSize := if isRvc word then 2 else 4 })
  refine ⟨(done.2.arch, RiscvArch.report done.2), ?_, ?_, ?_⟩
  · rw [RiscvArch.decode_eq, fetched]
    change ((bodyOf word).exec P _ >>= _) = _
    rw [ran]
    rfl
  · rw [RiscvArch.report_type, typed]
  · rw [RiscvArch.report_eq]
    change done.2.info.instSize.toNat = lenOf word
    rw [sized]
    change (if isRvc word then (2 : Byte) else 4).toNat = lenOf word
    unfold lenOf
    split <;> rfl

/-- `decode` classifies a jump by its body. -/
theorem Decoded.jump {word : BitVec 32} {pc : Word} {info : DecodeInfo}
    (decoded : Decoded word pc info) {type : InstType}
    (jump : jumpType (bodyOf word) = some type) :
    info.type = type ∧ info.instSize.toNat = lenOf word := by
  obtain ⟨δ, P, arch, read, after, paddr, value, cached, slot, memory, holds, ran⟩ := decoded
  obtain ⟨r, ran', typed, sized⟩ := decode_jump memory holds jump pc
  rw [ran] at ran'
  cases ran'
  exact ⟨typed, sized⟩

/-- The word stored in memory is read back. -/
theorem load_word (word : BitVec 32) :
    (Memory.load (byteAt (word.setWidth 64)) 0 4).setWidth 32 = word := by
  apply BitVec.eq_of_getLsbD_eq
  intro i bound
  have lane : i / 8 < 4 := by omega
  rw [BitVec.getLsbD_setWidth, Memory.load, joinBytes_getLsbD _ (by omega)]
  simp [List.getD, lane, byteAt, bound, Nat.mod_lt, Nat.div_add_mod, show i < 64 by omega]

/-- Every jump can be decoded at every address. -/
theorem exists_decoded {word : BitVec 32} {type : InstType}
    (jump : jumpType (bodyOf word) = some type) (pc : Word) : ∃ info, Decoded word pc info := by
  let P : Platform Unit := ⟨⟨4, []⟩, ⟨fun _ _ _ _ => none⟩, 0⟩
  let arch : RiscvArch Unit :=
    ⟨.zero, false, false, ⟨byteAt (word.setWidth 64), ()⟩, 0, 0, 0, 0⟩
  have memory : arch.paddrRead P 0x80000000 4 ((DecodeInfo.zero.inst).setWidth 64) =
      .ok (Memory.load (byteAt (word.setWidth 64)) 0 4, true, arch) := rfl
  obtain ⟨r, ran, -⟩ := decode_jump memory (load_word word) jump pc
  exact ⟨r.2, Unit, P, arch, arch, r.1, 0x80000000, _, true, DecodeInfo.zero, memory,
    load_word word, ran⟩

/-! ### Well-nested code -/

/-- `x1` and `x5`. -/
def IsLink (r : BitVec 5) : Prop := r = 1 ∨ r = 5

instance (r : BitVec 5) : Decidable (IsLink r) := inferInstanceAs (Decidable (_ ∨ _))

/-- `jal` or `jalr` to a link register. -/
structure CallInst where
  word : BitVec 32
  isCall : ∃ rd, IsLink rd ∧
    ((∃ imm, bodyOf word = .jal rd imm) ∨ ∃ rs1 imm, bodyOf word = .jalr rd rs1 imm)

/-- `jalr` from a link register to none. -/
structure ReturnInst where
  word : BitVec 32
  isReturn : ∃ rd rs1 imm, bodyOf word = .jalr rd rs1 imm ∧ IsLink rs1 ∧ ¬ IsLink rd

/-- The type `decode` gives the call. -/
def CallInst.type (call : CallInst) : InstType := (jumpType (bodyOf call.word)).getD .int

/-- The length of the call. -/
def CallInst.len (call : CallInst) : Nat := lenOf call.word

/-- The length of the return. -/
def ReturnInst.len (ret : ReturnInst) : Nat := lenOf ret.word

/-- A sequence of calls, each with what runs before it returns. -/
inductive Code
  | done
  | call (inst : CallInst) (inner : Code) (ret : ReturnInst) (rest : Code)

namespace Code

/-- The nesting depth. -/
def depth : Code → Nat
  | done => 0
  | .call _ inner _ rest => max (inner.depth + 1) rest.depth

/-- `insts` is a run of the code, wherever its instructions lie, and `addrs` are the addresses
its returns go back to. -/
inductive Runs : Code → List Fetched → List Word → Prop
  | done : Runs .done [] []
  | call {inst : CallInst} {ret : ReturnInst} {inner rest : Code} {first last : Fetched}
      {insts insts' : List Fetched} {addrs addrs' : List Word}
      (called : Decoded inst.word first.pc first.info) (ran : Runs inner insts addrs)
      (returned : Decoded ret.word last.pc last.info) (ran' : Runs rest insts' addrs') :
      Runs (.call inst inner ret rest) (first :: insts ++ last :: insts')
        (addrs ++ (first.pc + BitVec.ofNat 64 inst.len) :: addrs')

end Code

/-- A call has two or four bytes. -/
theorem CallInst.len_cases (inst : CallInst) : inst.len = 2 ∨ inst.len = 4 := by
  unfold CallInst.len lenOf
  split
  · exact .inl rfl
  · exact .inr rfl

/-- A JALR that links is one of three kinds of call. -/
theorem jalrType_call {rd : BitVec 5} (link : IsLink rd) (rs1 : BitVec 5) :
    jalrType rd rs1 = some .indPush ∨ jalrType rd rs1 = some .popPush ∨
      jalrType rd rs1 = some .indCall := by
  have valid : (rd == 1 || rd == 5) = true := by simpa [IsLink] using link
  unfold jalrType
  rw [valid]
  cases rs1 == 1 || rs1 == 5 <;> cases rd == rs1 <;> cases rs1 != 0 <;> simp

/-- A JALR through a link register that does not link is a return. -/
theorem jalrType_return {rd rs1 : BitVec 5} (link : IsLink rs1) (plain : ¬ IsLink rd) :
    jalrType rd rs1 = some .pop := by
  have valid : (rs1 == 1 || rs1 == 5) = true := by simpa [IsLink] using link
  have invalid : (rd == 1 || rd == 5) = false := by
    rw [← Bool.not_eq_true]
    simpa [IsLink] using plain
  unfold jalrType
  rw [valid, invalid]
  rfl

/-- What a call can be to the stack. -/
theorem CallInst.jumpType_eq (call : CallInst) :
    jumpType (bodyOf call.word) = some call.type ∧
      (call.type = .push ∨ call.type = .indPush ∨ call.type = .popPush ∨
        call.type = .indCall) := by
  obtain ⟨word, rd, link, ⟨imm, body⟩ | ⟨rs1, imm, body⟩⟩ := call
  · have nonzero : rd ≠ 0 := by rcases link with rfl | rfl <;> decide
    have jump : jumpType (bodyOf word) = some .push := by
      rw [body, jumpType, if_neg nonzero]
    simp only [CallInst.type, jump, Option.getD_some, true_and, true_or]
  · have jump : jumpType (bodyOf word) = jalrType rd rs1 := by
      rw [body, jumpType]
    simp only [CallInst.type, jump]
    rcases jalrType_call link rs1 with type | type | type <;> simp [type]

/-- The decoder types a return as one. -/
theorem ReturnInst.jumpType_eq (ret : ReturnInst) :
    jumpType (bodyOf ret.word) = some .pop := by
  obtain ⟨word, rd, rs1, imm, body, link, plain⟩ := ret
  rw [body, jumpType, jalrType_return link plain]

end CPUDelaySim
