import CPUDelaySim.Riscv.Decode32

/-!
# The compressed decoder

`decode_insn16` of the generated `trans_rv16.h`, in the form of the 32-bit decoder:
the calls of the nest of switches with the tests on their paths, in order.
-/

namespace CPUDelaySim.Riscv

/-! ### Field extraction -/

/-- `ex_rvc_register` on a three-bit field. -/
def rvcReg (i : BitVec 32) (pos : Nat) : BitVec 5 := (field i pos 3).setWidth 5 + 8

def extractCAddi16sp (i : BitVec 32) : ArgI :=
  ⟨(field i 12 1 ++ field i 3 2 ++ field i 5 1 ++ field i 2 1 ++ field i 6 1 ++
    0#4).signExtend 64, 2, 2⟩

def extractCAddi4spn (i : BitVec 32) : ArgI :=
  ⟨(field i 7 4 ++ field i 11 2 ++ field i 5 1 ++ field i 6 1 ++ 0#2).setWidth 64, 2,
    rvcReg i 2⟩

def extractCAndi (i : BitVec 32) : ArgI :=
  ⟨(field i 12 1 ++ field i 2 5).signExtend 64, rvcReg i 7, rvcReg i 7⟩

/-- `@c_jalr`, whose two users set `rd`. -/
def extractCJalr (rd : BitVec 5) (i : BitVec 32) : ArgI := ⟨0, field i 7 5, rd⟩

def extractCLdsp (i : BitVec 32) : ArgI :=
  ⟨(field i 2 3 ++ field i 12 1 ++ field i 5 2 ++ 0#3).setWidth 64, 2, field i 7 5⟩

def extractCLi (i : BitVec 32) : ArgI :=
  ⟨(field i 12 1 ++ field i 2 5).signExtend 64, 0, field i 7 5⟩

def extractCLui (i : BitVec 32) : ArgU :=
  ⟨(field i 12 1 ++ field i 2 5 ++ 0#12).signExtend 64, field i 7 5⟩

def extractCLwsp (i : BitVec 32) : ArgI :=
  ⟨(field i 2 2 ++ field i 12 1 ++ field i 4 3 ++ 0#2).setWidth 64, 2, field i 7 5⟩

def extractCMv (i : BitVec 32) : ArgI := ⟨0, field i 2 5, field i 7 5⟩

def extractCSdsp (i : BitVec 32) : ArgS :=
  ⟨(field i 7 3 ++ field i 10 3 ++ 0#3).setWidth 64, 2, field i 2 5⟩

def extractCShift (i : BitVec 32) : ArgShift :=
  ⟨(field i 12 1 ++ field i 2 5).setWidth 7, rvcReg i 7, rvcReg i 7⟩

def extractCShift2 (i : BitVec 32) : ArgShift :=
  ⟨(field i 12 1 ++ field i 2 5).setWidth 7, field i 7 5, field i 7 5⟩

def extractCSwsp (i : BitVec 32) : ArgS :=
  ⟨(field i 7 2 ++ field i 9 4 ++ 0#2).setWidth 64, 2, field i 2 5⟩

def extractCbZ (i : BitVec 32) : ArgB :=
  ⟨(field i 12 1 ++ field i 5 2 ++ field i 2 1 ++ field i 10 2 ++ field i 3 2 ++
    0#1).signExtend 64, 0, rvcReg i 7⟩

def extractCi (i : BitVec 32) : ArgI :=
  ⟨(field i 12 1 ++ field i 2 5).signExtend 64, field i 7 5, field i 7 5⟩

/-- `@cj`, whose two users set `rd`. -/
def extractCj (rd : BitVec 5) (i : BitVec 32) : ArgJ :=
  ⟨(field i 12 1 ++ field i 8 1 ++ field i 9 2 ++ field i 6 1 ++ field i 7 1 ++ field i 2 1 ++
    field i 11 1 ++ field i 3 3 ++ 0#1).signExtend 64, rd⟩

def extractClD (i : BitVec 32) : ArgI :=
  ⟨(field i 5 2 ++ field i 10 3 ++ 0#3).setWidth 64, rvcReg i 7, rvcReg i 2⟩

def extractClW (i : BitVec 32) : ArgI :=
  ⟨(field i 5 1 ++ field i 10 3 ++ field i 6 1 ++ 0#2).setWidth 64, rvcReg i 7, rvcReg i 2⟩

def extractCr (i : BitVec 32) : ArgR := ⟨field i 7 5, field i 7 5, field i 2 5⟩

def extractCs2 (i : BitVec 32) : ArgR := ⟨rvcReg i 7, rvcReg i 7, rvcReg i 2⟩

def extractCsD (i : BitVec 32) : ArgS :=
  ⟨(field i 5 2 ++ field i 10 3 ++ 0#3).setWidth 64, rvcReg i 7, rvcReg i 2⟩

def extractCsW (i : BitVec 32) : ArgS :=
  ⟨(field i 5 1 ++ field i 10 3 ++ field i 6 1 ++ 0#2).setWidth 64, rvcReg i 7, rvcReg i 2⟩

/-! ### The table -/

/-- The calls of `decode_insn16`. -/
def rows16 : List Row :=
    exits [
      (0xffe3, 0x0)] ++
    [
      ⟨0xe003, 0x0, fun i => transAddi (extractCAddi4spn i)⟩,
      ⟨0xe003, 0x1, fun i => transAddi (extractCi i)⟩,
      ⟨0xe003, 0x2, fun i => transSlli (extractCShift2 i)⟩,
      ⟨0xe003, 0x2000, fun _ => transLq⟩,
      ⟨0xe003, 0x2000, fun i => transCFld (extractClD i)⟩] ++
    exits [
      (0xef83, 0x2001)] ++
    [
      ⟨0xe003, 0x2001, fun i => transAddiw (extractCi i)⟩,
      ⟨0xe003, 0x2001, fun i => transJal (extractCj 1 i)⟩,
      ⟨0xe003, 0x2002, fun _ => transLq⟩,
      ⟨0xe003, 0x2002, fun i => transCFld (extractCLdsp i)⟩,
      ⟨0xe003, 0x4000, fun i => transLw (extractClW i)⟩,
      ⟨0xe003, 0x4001, fun i => transAddi (extractCLi i)⟩] ++
    exits [
      (0xef83, 0x4002)] ++
    [
      ⟨0xe003, 0x4002, fun i => transLw (extractCLwsp i)⟩,
      ⟨0xe003, 0x6000, fun i => transLd (extractClD i)⟩] ++
    exits [
      (0xe003, 0x6000), (0xffff, 0x6081), (0xffff, 0x6281), (0xf8ff, 0x6081),
      (0xf07f, 0x6001)] ++
    [
      ⟨0xef83, 0x6101, fun i => transAddi (extractCAddi16sp i)⟩,
      ⟨0xe003, 0x6001, fun i => transLui (extractCLui i)⟩] ++
    exits [
      (0xef83, 0x6002)] ++
    [
      ⟨0xe003, 0x6002, fun i => transLd (extractCLdsp i)⟩] ++
    exits [
      (0xe003, 0x6002), (0xfc03, 0x8000), (0xfc43, 0x8400), (0xfc43, 0x8440),
      (0xfc03, 0x8800), (0xfc43, 0x8c00)] ++
    [
      ⟨0xec03, 0x8001, fun i => transSrli (extractCShift i)⟩,
      ⟨0xec03, 0x8401, fun i => transSrai (extractCShift i)⟩,
      ⟨0xec03, 0x8801, fun i => transAndi (extractCAndi i)⟩,
      ⟨0xfc63, 0x8c01, fun i => transSub (extractCs2 i)⟩,
      ⟨0xfc63, 0x8c21, fun i => transXor (extractCs2 i)⟩,
      ⟨0xfc63, 0x8c41, fun i => transOr (extractCs2 i)⟩,
      ⟨0xfc63, 0x8c61, fun i => transAnd (extractCs2 i)⟩,
      ⟨0xfc63, 0x9c01, fun i => transSubw (extractCs2 i)⟩,
      ⟨0xfc63, 0x9c21, fun i => transAddw (extractCs2 i)⟩] ++
    exits [
      (0xfc63, 0x9c41), (0xfc7f, 0x9c61), (0xfc7f, 0x9c65), (0xfc7f, 0x9c69),
      (0xfc7f, 0x9c6d), (0xfc7f, 0x9c71), (0xfc7f, 0x9c75), (0xffff, 0x8002)] ++
    [
      ⟨0xf07f, 0x8002, fun i => transJalr (extractCJalr 0 i)⟩,
      ⟨0xf003, 0x8002, fun i => transAddi (extractCMv i)⟩,
      ⟨0xffff, 0x9002, fun _ => transEbreak⟩,
      ⟨0xf07f, 0x9002, fun i => transJalr (extractCJalr 1 i)⟩,
      ⟨0xf003, 0x9002, fun i => transAdd (extractCr i)⟩,
      ⟨0xe003, 0xa000, fun _ => transSq⟩,
      ⟨0xe003, 0xa000, fun i => transCFsd (extractCsD i)⟩,
      ⟨0xe003, 0xa001, fun i => transJal (extractCj 0 i)⟩,
      ⟨0xe003, 0xa002, fun _ => transSq⟩,
      ⟨0xe003, 0xa002, fun i => transCFsd (extractCSdsp i)⟩] ++
    exits [
      (0xfc03, 0xa002), (0xfc63, 0xac22), (0xfc63, 0xac62), (0xff03, 0xb802),
      (0xff03, 0xba02), (0xff03, 0xbc02), (0xff03, 0xbe02)] ++
    [
      ⟨0xe003, 0xc000, fun i => transSw (extractCsW i)⟩,
      ⟨0xe003, 0xc001, fun i => transBeq (extractCbZ i)⟩,
      ⟨0xe003, 0xc002, fun i => transSw (extractCSwsp i)⟩,
      ⟨0xe003, 0xe000, fun i => transSd (extractCsD i)⟩] ++
    exits [
      (0xe003, 0xe000)] ++
    [
      ⟨0xe003, 0xe001, fun i => transBne (extractCbZ i)⟩,
      ⟨0xe003, 0xe002, fun i => transSd (extractCSdsp i)⟩] ++
    exits [
      (0xe003, 0xe002)]

/-- The bodies `decode_insn16` tries on a word, in order. -/
def decodeInsn16 (insn : BitVec 32) : List Body :=
  rows16.filterMap fun r =>
    if insn &&& r.mask = r.value then some (r.body insn) else none

/-- `interpreter`, up to the calls of the bodies. -/
def candidates (insn : BitVec 32) (rvc : Bool) : List Body :=
  if rvc then decodeInsn16 insn else decodeInsn32 insn

end CPUDelaySim.Riscv
