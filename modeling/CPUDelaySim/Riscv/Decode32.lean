import CPUDelaySim.Riscv.Trans

/-!
# The 32-bit decoder

`decode_insn32` of the generated `trans_rv32.h`.  The generated function is a nest
of switches on fields of the word; every path through it ends in a call
`if (trans_x(ctx, &u)) return true;`, and falls on to the next such call when the
body returns false.  The model lists the calls: a row is the conjunction of the
tests on its path, as a mask and a value, with the call it guards, and the rows
stand in the order of the source.  The outermost switch, on the seven opcode bits,
stays a case distinction.

A row without a body is a `trans_*` function that is `__NOT_IMPLEMENTED_EXIT__`;
they all behave alike, so `exits` lists their masks and values only.
-/

namespace CPUDelaySim.Riscv

/-! ### Field extraction -/

/-- `extract32`. -/
abbrev field (insn : BitVec 32) (pos len : Nat) : BitVec len := insn.extractLsb' pos len

def extractR (i : BitVec 32) : ArgR := ⟨field i 7 5, field i 15 5, field i 20 5⟩

def extractR2 (i : BitVec 32) : ArgR2 := ⟨field i 7 5, field i 15 5⟩

def extractSfenceVma (i : BitVec 32) : ArgR2s := ⟨field i 15 5, field i 20 5⟩

def extractI (i : BitVec 32) : ArgI :=
  ⟨(field i 20 12).signExtend 64, field i 15 5, field i 7 5⟩

def extractSh (i : BitVec 32) : ArgShift := ⟨field i 20 7, field i 15 5, field i 7 5⟩

def extractSh5 (i : BitVec 32) : ArgShift :=
  ⟨(field i 20 5).setWidth 7, field i 15 5, field i 7 5⟩

def extractS (i : BitVec 32) : ArgS :=
  ⟨(field i 25 7 ++ field i 7 5).signExtend 64, field i 15 5, field i 20 5⟩

def extractB (i : BitVec 32) : ArgB :=
  ⟨(field i 31 1 ++ field i 7 1 ++ field i 25 6 ++ field i 8 4 ++ 0#1).signExtend 64,
    field i 20 5, field i 15 5⟩

def extractU (i : BitVec 32) : ArgU := ⟨(field i 12 20 ++ 0#12).signExtend 64, field i 7 5⟩

def extractJ (i : BitVec 32) : ArgJ :=
  ⟨(field i 31 1 ++ field i 12 8 ++ field i 20 1 ++ field i 21 10 ++ 0#1).signExtend 64,
    field i 7 5⟩

def extractAtomSt (i : BitVec 32) : ArgAtomic := ⟨field i 20 5, field i 15 5, field i 7 5⟩

def extractAtomLd (i : BitVec 32) : ArgAtomic := ⟨0, field i 15 5, field i 7 5⟩

def extractCsr (i : BitVec 32) : ArgCsr := ⟨field i 20 12, field i 15 5, field i 7 5⟩

def extractR4Rm (i : BitVec 32) : ArgR4Rm :=
  ⟨field i 27 5, field i 20 5, field i 15 5, field i 12 3, field i 7 5⟩

def extractRRm (i : BitVec 32) : ArgRRm :=
  ⟨field i 20 5, field i 15 5, field i 12 3, field i 7 5⟩

def extractR2Rm (i : BitVec 32) : ArgR2Rm := ⟨field i 15 5, field i 12 3, field i 7 5⟩

/-! ### The tables -/

/-- A call `if ((insn & mask) == value) if (trans_x(ctx, &u)) return true;`. -/
structure Row where
  mask : BitVec 32
  value : BitVec 32
  body : BitVec 32 → Body

/-- Calls of functions that are `__NOT_IMPLEMENTED_EXIT__`. -/
def exits (rows : List (BitVec 32 × BitVec 32)) : List Row :=
  rows.map fun r => ⟨r.1, r.2, fun _ => .notImplemented⟩

/-- `insn & 0x7f == 0x03`. -/
def rows03 : List Row :=
    [
      ⟨0x707f, 0x3, fun i => transLb (extractI i)⟩,
      ⟨0x707f, 0x1003, fun i => transLh (extractI i)⟩,
      ⟨0x707f, 0x2003, fun i => transLw (extractI i)⟩,
      ⟨0x707f, 0x3003, fun i => transLd (extractI i)⟩,
      ⟨0x707f, 0x4003, fun i => transLbu (extractI i)⟩,
      ⟨0x707f, 0x5003, fun i => transLhu (extractI i)⟩,
      ⟨0x707f, 0x6003, fun i => transLwu (extractI i)⟩] ++
    exits [
      (0x707f, 0x7003)]

/-- `insn & 0x7f == 0x07`. -/
def rows07 : List Row :=
    exits [
      (0x1df0707f, 0x7), (0xfff0707f, 0x2800007), (0xfff0707f, 0x22800007),
      (0xfff0707f, 0x62800007), (0xfff0707f, 0xe2800007), (0xfff0707f, 0x2b00007),
      (0x1df0707f, 0x1000007), (0x1c00707f, 0x8000007), (0x1400707f, 0x4000007),
      (0x707f, 0x1007)] ++
    [
      ⟨0x707f, 0x2007, fun i => transFlw (extractI i)⟩,
      ⟨0x707f, 0x3007, fun i => transFld (extractI i)⟩] ++
    exits [
      (0x1df0707f, 0x5007), (0xfff0707f, 0x2805007), (0xfff0707f, 0x22805007),
      (0xfff0707f, 0x62805007), (0xfff0707f, 0xe2805007), (0x1df0707f, 0x1005007),
      (0x1c00707f, 0x8005007), (0x1400707f, 0x4005007), (0x1df0707f, 0x6007),
      (0xfff0707f, 0x2806007), (0xfff0707f, 0x22806007), (0xfff0707f, 0x62806007),
      (0xfff0707f, 0xe2806007), (0x1df0707f, 0x1006007), (0x1c00707f, 0x8006007),
      (0x1400707f, 0x4006007), (0x1df0707f, 0x7007), (0xfff0707f, 0x2807007),
      (0xfff0707f, 0x22807007), (0xfff0707f, 0x62807007), (0xfff0707f, 0xe2807007),
      (0x1df0707f, 0x1007007), (0x1c00707f, 0x8007007), (0x1400707f, 0x4007007)]

/-- `insn & 0x7f == 0x0f`. -/
def rows0F : List Row :=
    [
      ⟨0xffffffff, 0x100000f, fun _ => transPause⟩,
      ⟨0x707f, 0xf, fun _ => transFence⟩,
      ⟨0x707f, 0x100f, fun _ => transFenceI⟩] ++
    exits [
      (0xfff07fff, 0x200f), (0xfff07fff, 0x10200f), (0xfff07fff, 0x20200f),
      (0xfff07fff, 0x40200f)] ++
    [
      ⟨0x707f, 0x200f, fun _ => transLq⟩]

/-- `insn & 0x7f == 0x13`. -/
def rows13 : List Row :=
    [
      ⟨0x707f, 0x13, fun i => transAddi (extractI i)⟩,
      ⟨0xf800707f, 0x1013, fun i => transSlli (extractSh i)⟩] ++
    exits [
      (0xfff0707f, 0x8f01013), (0xfff0707f, 0x10001013), (0xfff0707f, 0x10101013),
      (0xfff0707f, 0x10201013), (0xfff0707f, 0x10301013), (0xfff0707f, 0x10401013),
      (0xfff0707f, 0x10501013), (0xfff0707f, 0x10601013), (0xfff0707f, 0x10701013),
      (0xfff0707f, 0x10801013), (0xfff0707f, 0x10901013)] ++
    [
      ⟨0xf800707f, 0x28001013, fun i => transBseti (extractSh i)⟩] ++
    exits [
      (0xfff0707f, 0x30001013), (0xff00707f, 0x31001013)] ++
    [
      ⟨0xf800707f, 0x48001013, fun i => transBclri (extractSh i)⟩,
      ⟨0xfff0707f, 0x60001013, fun i => transClz (extractR2 i)⟩,
      ⟨0xfff0707f, 0x60101013, fun i => transCtz (extractR2 i)⟩] ++
    exits [
      (0xfff0707f, 0x60201013)] ++
    [
      ⟨0xfff0707f, 0x60401013, fun i => transSextB (extractR2 i)⟩,
      ⟨0xfff0707f, 0x60501013, fun i => transSextH (extractR2 i)⟩,
      ⟨0xf800707f, 0x68001013, fun i => transBinvi (extractSh i)⟩,
      ⟨0x707f, 0x2013, fun i => transSlti (extractI i)⟩,
      ⟨0x707f, 0x3013, fun i => transSltiu (extractI i)⟩,
      ⟨0x707f, 0x4013, fun i => transXori (extractI i)⟩,
      ⟨0xf800707f, 0x5013, fun i => transSrli (extractSh i)⟩] ++
    exits [
      (0xfff0707f, 0x8f05013)] ++
    [
      ⟨0xfff0707f, 0x28705013, fun i => transOrcB (extractR2 i)⟩,
      ⟨0xf800707f, 0x40005013, fun i => transSrai (extractSh i)⟩,
      ⟨0xf800707f, 0x48005013, fun i => transBexti (extractSh i)⟩,
      ⟨0xf800707f, 0x60005013, fun i => transRori (extractSh i)⟩,
      ⟨0xfff0707f, 0x68705013, fun i => transBrev8 (extractR2 i)⟩,
      ⟨0xfff0707f, 0x69805013, fun i => transRev8_32 (extractR2 i)⟩,
      ⟨0xfff0707f, 0x6b805013, fun i => transRev8_64 (extractR2 i)⟩,
      ⟨0x707f, 0x6013, fun i => transOri (extractI i)⟩,
      ⟨0x707f, 0x7013, fun i => transAndi (extractI i)⟩]

/-- `insn & 0x7f == 0x17`. -/
def rows17 : List Row :=
    exits [
      (0xfff, 0x17)] ++
    [
      ⟨0x7f, 0x17, fun i => transAuipc (extractU i)⟩]

/-- `insn & 0x7f == 0x1b`. -/
def rows1B : List Row :=
    [
      ⟨0x707f, 0x1b, fun i => transAddiw (extractI i)⟩,
      ⟨0xfe00707f, 0x101b, fun i => transSlliw (extractSh5 i)⟩,
      ⟨0xf800707f, 0x800101b, fun i => transSlliUw (extractSh i)⟩,
      ⟨0xfff0707f, 0x6000101b, fun i => transClzw (extractR2 i)⟩,
      ⟨0xfff0707f, 0x6010101b, fun i => transCtzw (extractR2 i)⟩] ++
    exits [
      (0xfff0707f, 0x6020101b)] ++
    [
      ⟨0xfe00707f, 0x501b, fun i => transSrliw (extractSh5 i)⟩,
      ⟨0xfe00707f, 0x4000501b, fun i => transSraiw (extractSh5 i)⟩,
      ⟨0xfe00707f, 0x6000501b, fun i => transRoriw (extractSh5 i)⟩]

/-- `insn & 0x7f == 0x23`. -/
def rows23 : List Row :=
    [
      ⟨0x707f, 0x23, fun i => transSb (extractS i)⟩,
      ⟨0x707f, 0x1023, fun i => transSh (extractS i)⟩,
      ⟨0x707f, 0x2023, fun i => transSw (extractS i)⟩,
      ⟨0x707f, 0x3023, fun i => transSd (extractS i)⟩,
      ⟨0x707f, 0x4023, fun _ => transSq⟩]

/-- `insn & 0x7f == 0x27`. -/
def rows27 : List Row :=
    exits [
      (0x1df0707f, 0x27), (0xfff0707f, 0x2800027), (0xfff0707f, 0x22800027),
      (0xfff0707f, 0x62800027), (0xfff0707f, 0xe2800027), (0xfff0707f, 0x2b00027),
      (0x1c00707f, 0x8000027), (0x1400707f, 0x4000027), (0x707f, 0x1027)] ++
    [
      ⟨0x707f, 0x2027, fun i => transFsw (extractS i)⟩,
      ⟨0x707f, 0x3027, fun i => transFsd (extractS i)⟩] ++
    exits [
      (0x1df0707f, 0x5027), (0x1c00707f, 0x8005027), (0x1400707f, 0x4005027),
      (0x1df0707f, 0x6027), (0x1c00707f, 0x8006027), (0x1400707f, 0x4006027),
      (0x1df0707f, 0x7027), (0x1c00707f, 0x8007027), (0x1400707f, 0x4007027)]

/-- `insn & 0x7f == 0x2f`. -/
def rows2F : List Row :=
    exits [
      (0xf800707f, 0x2f), (0xf800707f, 0x102f)] ++
    [
      ⟨0xf800707f, 0x202f, fun i => transAmoaddW (extractAtomSt i)⟩,
      ⟨0xf800707f, 0x302f, fun i => transAmoaddD (extractAtomSt i)⟩] ++
    exits [
      (0xf800707f, 0x800002f), (0xf800707f, 0x800102f)] ++
    [
      ⟨0xf800707f, 0x800202f, fun i => transAmoswapW (extractAtomSt i)⟩,
      ⟨0xf800707f, 0x800302f, fun i => transAmoswapD (extractAtomSt i)⟩,
      ⟨0xf9f0707f, 0x1000202f, fun i => transLrW (extractAtomLd i)⟩,
      ⟨0xf9f0707f, 0x1000302f, fun i => transLrD (extractAtomLd i)⟩,
      ⟨0xf800707f, 0x1800202f, fun i => transScW (extractAtomSt i)⟩,
      ⟨0xf800707f, 0x1800302f, fun i => transScD (extractAtomSt i)⟩] ++
    exits [
      (0xf800707f, 0x2000002f), (0xf800707f, 0x2000102f)] ++
    [
      ⟨0xf800707f, 0x2000202f, fun i => transAmoxorW (extractAtomSt i)⟩,
      ⟨0xf800707f, 0x2000302f, fun i => transAmoxorD (extractAtomSt i)⟩] ++
    exits [
      (0xf800707f, 0x2800002f), (0xf800707f, 0x2800102f), (0xf800707f, 0x2800202f),
      (0xf800707f, 0x2800302f), (0xf800707f, 0x2800402f), (0xf800707f, 0x4000002f),
      (0xf800707f, 0x4000102f)] ++
    [
      ⟨0xf800707f, 0x4000202f, fun i => transAmoorW (extractAtomSt i)⟩,
      ⟨0xf800707f, 0x4000302f, fun i => transAmoorD (extractAtomSt i)⟩] ++
    exits [
      (0xf800707f, 0x4800202f), (0xf800707f, 0x4800302f), (0xf800707f, 0x6000002f),
      (0xf800707f, 0x6000102f)] ++
    [
      ⟨0xf800707f, 0x6000202f, fun i => transAmoandW (extractAtomSt i)⟩,
      ⟨0xf800707f, 0x6000302f, fun i => transAmoandD (extractAtomSt i)⟩] ++
    exits [
      (0xf800707f, 0x8000002f), (0xf800707f, 0x8000102f)] ++
    [
      ⟨0xf800707f, 0x8000202f, fun i => transAmominW (extractAtomSt i)⟩,
      ⟨0xf800707f, 0x8000302f, fun i => transAmominD (extractAtomSt i)⟩] ++
    exits [
      (0xf800707f, 0xa000002f), (0xf800707f, 0xa000102f)] ++
    [
      ⟨0xf800707f, 0xa000202f, fun i => transAmomaxW (extractAtomSt i)⟩,
      ⟨0xf800707f, 0xa000302f, fun i => transAmomaxD (extractAtomSt i)⟩] ++
    exits [
      (0xf800707f, 0xc000002f), (0xf800707f, 0xc000102f)] ++
    [
      ⟨0xf800707f, 0xc000202f, fun i => transAmominuW (extractAtomSt i)⟩,
      ⟨0xf800707f, 0xc000302f, fun i => transAmominuD (extractAtomSt i)⟩] ++
    exits [
      (0xf800707f, 0xe000002f), (0xf800707f, 0xe000102f)] ++
    [
      ⟨0xf800707f, 0xe000202f, fun i => transAmomaxuW (extractAtomSt i)⟩,
      ⟨0xf800707f, 0xe000302f, fun i => transAmomaxuD (extractAtomSt i)⟩]

/-- `insn & 0x7f == 0x33`. -/
def rows33 : List Row :=
    [
      ⟨0xfe00707f, 0x33, fun i => transAdd (extractR i)⟩,
      ⟨0xfe00707f, 0x40000033, fun i => transSub (extractR i)⟩,
      ⟨0xfe00707f, 0x1033, fun i => transSll (extractR i)⟩,
      ⟨0xfe00707f, 0x2033, fun i => transSlt (extractR i)⟩,
      ⟨0xfe00707f, 0x3033, fun i => transSltu (extractR i)⟩,
      ⟨0xfe00707f, 0x4033, fun i => transXor (extractR i)⟩,
      ⟨0xfe00707f, 0x40004033, fun i => transXnor (extractR i)⟩,
      ⟨0xfe00707f, 0x5033, fun i => transSrl (extractR i)⟩,
      ⟨0xfe00707f, 0x40005033, fun i => transSra (extractR i)⟩,
      ⟨0xfe00707f, 0x6033, fun i => transOr (extractR i)⟩,
      ⟨0xfe00707f, 0x40006033, fun i => transOrn (extractR i)⟩,
      ⟨0xfe00707f, 0x7033, fun i => transAnd (extractR i)⟩,
      ⟨0xfe00707f, 0x40007033, fun i => transAndn (extractR i)⟩,
      ⟨0xfe00707f, 0x2000033, fun i => transMul (extractR i)⟩,
      ⟨0xfe00707f, 0x2001033, fun i => transMulh (extractR i)⟩] ++
    exits [
      (0xfe00707f, 0x2002033)] ++
    [
      ⟨0xfe00707f, 0x2003033, fun i => transMulhu (extractR i)⟩,
      ⟨0xfe00707f, 0x2004033, fun i => transDiv (extractR i)⟩,
      ⟨0xfe00707f, 0x2005033, fun i => transDivu (extractR i)⟩,
      ⟨0xfe00707f, 0x2006033, fun i => transRem (extractR i)⟩,
      ⟨0xfe00707f, 0x2007033, fun i => transRemu (extractR i)⟩,
      ⟨0xfe00707f, 0x48001033, fun i => transBclr (extractR i)⟩] ++
    exits [
      (0xfff0707f, 0x8004033)] ++
    [
      ⟨0xfe00707f, 0x8004033, fun i => transPack (extractR i)⟩,
      ⟨0xfe00707f, 0x48005033, fun i => transBext (extractR i)⟩,
      ⟨0xfe00707f, 0x8007033, fun i => transPackh (extractR i)⟩] ++
    exits [
      (0xfe00707f, 0xa001033), (0xfe00707f, 0xa002033), (0xfe00707f, 0xa003033)] ++
    [
      ⟨0xfe00707f, 0xa004033, fun i => transMin (extractR i)⟩,
      ⟨0xfe00707f, 0xa005033, fun i => transMinu (extractR i)⟩,
      ⟨0xfe00707f, 0xa006033, fun i => transMax (extractR i)⟩,
      ⟨0xfe00707f, 0xa007033, fun i => transMaxu (extractR i)⟩] ++
    exits [
      (0xfe00707f, 0xe005033), (0xfe00707f, 0xe007033), (0xfe00707f, 0x50000033),
      (0xfe00707f, 0x52000033), (0xfe00707f, 0x54000033), (0xfe00707f, 0x56000033),
      (0xfe00707f, 0x5c000033), (0xfe00707f, 0x5e000033)] ++
    [
      ⟨0xfe00707f, 0x60001033, fun i => transRol (extractR i)⟩,
      ⟨0xfe00707f, 0x20002033, fun i => transSh1add (extractR i)⟩,
      ⟨0xfe00707f, 0x20004033, fun i => transSh2add (extractR i)⟩,
      ⟨0xfe00707f, 0x60005033, fun i => transRor (extractR i)⟩,
      ⟨0xfe00707f, 0x20006033, fun i => transSh3add (extractR i)⟩] ++
    exits [
      (0x3e00707f, 0x22000033), (0x3e00707f, 0x26000033)] ++
    [
      ⟨0xfe00707f, 0x28001033, fun i => transBset (extractR i)⟩,
      ⟨0xfe00707f, 0x68001033, fun i => transBinv (extractR i)⟩] ++
    exits [
      (0xfe00707f, 0x28002033), (0xfe00707f, 0x28004033), (0x3e00707f, 0x2a000033),
      (0x3e00707f, 0x2e000033), (0x3e00707f, 0x30000033), (0xfe00707f, 0x32000033),
      (0x3e00707f, 0x34000033), (0xfe00707f, 0x36000033), (0xfe00707f, 0x3a000033),
      (0xfe00707f, 0x3e000033), (0xfe00707f, 0x7e000033)]

/-- `insn & 0x7f == 0x37`. -/
def rows37 : List Row :=
    [
      ⟨0x7f, 0x37, fun i => transLui (extractU i)⟩]

/-- `insn & 0x7f == 0x3b`. -/
def rows3B : List Row :=
    [
      ⟨0xfe00707f, 0x3b, fun i => transAddw (extractR i)⟩,
      ⟨0xfe00707f, 0x103b, fun i => transSllw (extractR i)⟩,
      ⟨0xfe00707f, 0x503b, fun i => transSrlw (extractR i)⟩,
      ⟨0xfe00707f, 0x200003b, fun i => transMulw (extractR i)⟩,
      ⟨0xfe00707f, 0x200403b, fun i => transDivw (extractR i)⟩,
      ⟨0xfe00707f, 0x200503b, fun i => transDivuw (extractR i)⟩,
      ⟨0xfe00707f, 0x200603b, fun i => transRemw (extractR i)⟩,
      ⟨0xfe00707f, 0x200703b, fun i => transRemuw (extractR i)⟩,
      ⟨0xfe00707f, 0x800003b, fun i => transAddUw (extractR i)⟩,
      ⟨0xfff0707f, 0x800403b, fun i => transZextH64 (extractR2 i)⟩,
      ⟨0xfe00707f, 0x800403b, fun i => transPackw (extractR i)⟩,
      ⟨0xfe00707f, 0x2000203b, fun i => transSh1addUw (extractR i)⟩,
      ⟨0xfe00707f, 0x2000403b, fun i => transSh2addUw (extractR i)⟩,
      ⟨0xfe00707f, 0x2000603b, fun i => transSh3addUw (extractR i)⟩,
      ⟨0xfe00707f, 0x4000003b, fun i => transSubw (extractR i)⟩,
      ⟨0xfe00707f, 0x4000503b, fun i => transSraw (extractR i)⟩,
      ⟨0xfe00707f, 0x6000103b, fun i => transRolw (extractR i)⟩,
      ⟨0xfe00707f, 0x6000503b, fun i => transRorw (extractR i)⟩]

/-- `insn & 0x7f == 0x43`. -/
def rows43 : List Row :=
    exits [
      (0x600007f, 0x43)] ++
    [
      ⟨0x600007f, 0x2000043, fun i => transFmaddD (extractR4Rm i)⟩] ++
    exits [
      (0x600007f, 0x4000043)]

/-- `insn & 0x7f == 0x47`. -/
def rows47 : List Row :=
    exits [
      (0x600007f, 0x47), (0x600007f, 0x2000047), (0x600007f, 0x4000047)]

/-- `insn & 0x7f == 0x4b`. -/
def rows4B : List Row :=
    exits [
      (0x600007f, 0x4b), (0x600007f, 0x200004b), (0x600007f, 0x400004b)]

/-- `insn & 0x7f == 0x4f`. -/
def rows4F : List Row :=
    exits [
      (0x600007f, 0x4f), (0x600007f, 0x200004f), (0x600007f, 0x400004f)]

/-- `insn & 0x7f == 0x53`. -/
def rows53 : List Row :=
    [
      ⟨0xfe00007f, 0x53, fun i => transFaddS (extractRRm i)⟩,
      ⟨0xfe00007f, 0x2000053, fun i => transFaddD (extractRRm i)⟩] ++
    exits [
      (0xfe00007f, 0x4000053)] ++
    [
      ⟨0xfe00007f, 0x8000053, fun i => transFsubS (extractRRm i)⟩,
      ⟨0xfe00007f, 0xa000053, fun i => transFsubD (extractRRm i)⟩] ++
    exits [
      (0xfe00007f, 0xc000053)] ++
    [
      ⟨0xfe00007f, 0x10000053, fun i => transFmulS (extractRRm i)⟩,
      ⟨0xfe00007f, 0x12000053, fun i => transFmulD (extractRRm i)⟩] ++
    exits [
      (0xfe00007f, 0x14000053)] ++
    [
      ⟨0xfe00007f, 0x18000053, fun i => transFdivS (extractRRm i)⟩,
      ⟨0xfe00007f, 0x1a000053, fun i => transFdivD (extractRRm i)⟩] ++
    exits [
      (0xfe00007f, 0x1c000053)] ++
    [
      ⟨0xfe00707f, 0x20000053, fun i => transFsgnjS (extractR i)⟩,
      ⟨0xfe00707f, 0x20001053, fun i => transFsgnjnS (extractR i)⟩,
      ⟨0xfe00707f, 0x20002053, fun i => transFsgnjxS (extractR i)⟩,
      ⟨0xfe00707f, 0x22000053, fun i => transFsgnjD (extractR i)⟩,
      ⟨0xfe00707f, 0x22001053, fun i => transFsgnjnD (extractR i)⟩,
      ⟨0xfe00707f, 0x22002053, fun i => transFsgnjxD (extractR i)⟩] ++
    exits [
      (0xfe00707f, 0x24000053), (0xfe00707f, 0x24001053), (0xfe00707f, 0x24002053),
      (0xfe00707f, 0x28000053), (0xfe00707f, 0x28001053), (0xfe00707f, 0x28002053),
      (0xfe00707f, 0x28003053)] ++
    [
      ⟨0xfe00707f, 0x2a000053, fun i => transFminD (extractR i)⟩] ++
    exits [
      (0xfe00707f, 0x2a001053), (0xfe00707f, 0x2a002053), (0xfe00707f, 0x2a003053),
      (0xfe00707f, 0x2c000053), (0xfe00707f, 0x2c001053), (0xfe00707f, 0x2c002053),
      (0xfe00707f, 0x2c003053)] ++
    [
      ⟨0xfff0007f, 0x40100053, fun i => transFcvtSD (extractR2Rm i)⟩] ++
    exits [
      (0xfff0007f, 0x40200053), (0xfff0007f, 0x40400053), (0xfff0007f, 0x40500053),
      (0xfff0007f, 0x40600053)] ++
    [
      ⟨0xfff0007f, 0x42000053, fun i => transFcvtDS (extractR2Rm i)⟩] ++
    exits [
      (0xfff0007f, 0x42200053), (0xfff0007f, 0x42400053), (0xfff0007f, 0x42500053),
      (0xfff0007f, 0x44000053), (0xfff0007f, 0x44100053), (0xfff0007f, 0x44400053),
      (0xfff0007f, 0x44500053), (0xfff0007f, 0x44800053), (0xfff0007f, 0x58000053),
      (0xfff0007f, 0x5a000053), (0xfff0007f, 0x5c000053)] ++
    [
      ⟨0xfe00707f, 0xa0000053, fun i => transFleS (extractR i)⟩,
      ⟨0xfe00707f, 0xa0001053, fun i => transFltS (extractR i)⟩] ++
    exits [
      (0xfe00707f, 0xa0002053), (0xfe00707f, 0xa0004053), (0xfe00707f, 0xa0005053)] ++
    [
      ⟨0xfe00707f, 0xa2000053, fun i => transFleD (extractR i)⟩,
      ⟨0xfe00707f, 0xa2001053, fun i => transFltD (extractR i)⟩,
      ⟨0xfe00707f, 0xa2002053, fun i => transFeqD (extractR i)⟩] ++
    exits [
      (0xfe00707f, 0xa2004053), (0xfe00707f, 0xa2005053), (0xfe00707f, 0xa4000053),
      (0xfe00707f, 0xa4001053), (0xfe00707f, 0xa4002053), (0xfe00707f, 0xa4004053),
      (0xfe00707f, 0xa4005053), (0xfe00707f, 0xb2000053)] ++
    [
      ⟨0xfff0007f, 0xc0000053, fun i => transFcvtWS (extractR2Rm i)⟩] ++
    exits [
      (0xfff0007f, 0xc0100053)] ++
    [
      ⟨0xfff0007f, 0xc0200053, fun i => transFcvtLS (extractR2Rm i)⟩,
      ⟨0xfff0007f, 0xc0300053, fun i => transFcvtLuS (extractR2Rm i)⟩,
      ⟨0xfff0007f, 0xc2000053, fun i => transFcvtWD (extractR2Rm i)⟩,
      ⟨0xfff0007f, 0xc2100053, fun i => transFcvtWuD (extractR2Rm i)⟩,
      ⟨0xfff0007f, 0xc2200053, fun i => transFcvtLD (extractR2Rm i)⟩,
      ⟨0xfff0007f, 0xc2300053, fun i => transFcvtLuD (extractR2Rm i)⟩] ++
    exits [
      (0xfff0707f, 0xc2801053), (0xfff0007f, 0xc4000053), (0xfff0007f, 0xc4100053),
      (0xfff0007f, 0xc4200053), (0xfff0007f, 0xc4300053)] ++
    [
      ⟨0xfff0007f, 0xd0000053, fun i => transFcvtSW (extractR2Rm i)⟩,
      ⟨0xfff0007f, 0xd0100053, fun i => transFcvtSWu (extractR2Rm i)⟩,
      ⟨0xfff0007f, 0xd0200053, fun i => transFcvtSL (extractR2Rm i)⟩,
      ⟨0xfff0007f, 0xd0300053, fun i => transFcvtSLu (extractR2Rm i)⟩,
      ⟨0xfff0007f, 0xd2000053, fun i => transFcvtDW (extractR2Rm i)⟩,
      ⟨0xfff0007f, 0xd2100053, fun i => transFcvtDWu (extractR2Rm i)⟩,
      ⟨0xfff0007f, 0xd2200053, fun i => transFcvtDL (extractR2Rm i)⟩,
      ⟨0xfff0007f, 0xd2300053, fun i => transFcvtDLu (extractR2Rm i)⟩] ++
    exits [
      (0xfff0007f, 0xd4000053), (0xfff0007f, 0xd4100053), (0xfff0007f, 0xd4200053),
      (0xfff0007f, 0xd4300053)] ++
    [
      ⟨0xfff0707f, 0xe0000053, fun i => transFmvXW (extractR2 i)⟩] ++
    exits [
      (0xfff0707f, 0xe0001053)] ++
    [
      ⟨0xfff0707f, 0xe2000053, fun i => transFmvXD (extractR2 i)⟩] ++
    exits [
      (0xfff0707f, 0xe2001053), (0xfff0707f, 0xe2100053), (0xfff0707f, 0xe4000053),
      (0xfff0707f, 0xe4001053)] ++
    [
      ⟨0xfff0707f, 0xf0000053, fun i => transFmvWX (extractR2 i)⟩] ++
    exits [
      (0xfff0707f, 0xf0100053)] ++
    [
      ⟨0xfff0707f, 0xf2000053, fun i => transFmvDX (extractR2 i)⟩] ++
    exits [
      (0xfff0707f, 0xf2100053), (0xfff0707f, 0xf4000053), (0xfff0707f, 0xf4100053)]

/-- `insn & 0x7f == 0x57`. -/
def rows57 : List Row :=
    exits [
      (0xfc00707f, 0x57), (0xfc00707f, 0x4000057), (0xfc00707f, 0x8000057),
      (0xfc00707f, 0x10000057), (0xfc00707f, 0x14000057), (0xfc00707f, 0x18000057),
      (0xfc00707f, 0x1c000057), (0xfc00707f, 0x24000057), (0xfc00707f, 0x28000057),
      (0xfc00707f, 0x2c000057), (0xfc00707f, 0x30000057), (0xfc00707f, 0x38000057),
      (0xfe00707f, 0x40000057), (0xfc00707f, 0x44000057), (0xfe00707f, 0x48000057),
      (0xfc00707f, 0x4c000057), (0xfc00707f, 0x50000057), (0xfc00707f, 0x54000057),
      (0xfe00707f, 0x5c000057), (0xfff0707f, 0x5e000057), (0xfc00707f, 0x60000057),
      (0xfc00707f, 0x64000057), (0xfc00707f, 0x68000057), (0xfc00707f, 0x6c000057),
      (0xfc00707f, 0x70000057), (0xfc00707f, 0x74000057), (0xfc00707f, 0x1057),
      (0xfc00707f, 0x4001057), (0xfc00707f, 0x8001057), (0xfc00707f, 0xc001057),
      (0xfc00707f, 0x10001057), (0xfc00707f, 0x14001057), (0xfc00707f, 0x18001057),
      (0xfc00707f, 0x1c001057), (0xfc00707f, 0x20001057), (0xfc00707f, 0x24001057),
      (0xfc00707f, 0x28001057), (0xfe0ff07f, 0x42001057), (0xfc0ff07f, 0x48001057),
      (0xfc0ff07f, 0x48009057), (0xfc0ff07f, 0x48011057), (0xfc0ff07f, 0x48019057),
      (0xfc0ff07f, 0x48031057), (0xfc0ff07f, 0x48039057), (0xfc0ff07f, 0x48041057),
      (0xfc0ff07f, 0x48049057), (0xfc0ff07f, 0x48051057), (0xfc0ff07f, 0x48059057),
      (0xfc0ff07f, 0x48061057), (0xfc0ff07f, 0x48069057), (0xfc0ff07f, 0x48071057),
      (0xfc0ff07f, 0x48079057), (0xfc0ff07f, 0x48081057), (0xfc0ff07f, 0x48089057),
      (0xfc0ff07f, 0x48091057), (0xfc0ff07f, 0x48099057), (0xfc0ff07f, 0x480a1057),
      (0xfc0ff07f, 0x480a9057), (0xfc0ff07f, 0x480b1057), (0xfc0ff07f, 0x480b9057),
      (0xfc0ff07f, 0x480e9057), (0xfc0ff07f, 0x4c001057), (0xfc0ff07f, 0x4c021057),
      (0xfc0ff07f, 0x4c029057), (0xfc0ff07f, 0x4c081057), (0xfc00707f, 0x60001057),
      (0xfc00707f, 0x64001057), (0xfc00707f, 0x6c001057), (0xfc00707f, 0x70001057),
      (0xfc00707f, 0x2057), (0xfc00707f, 0x4002057), (0xfc00707f, 0x8002057),
      (0xfc00707f, 0xc002057), (0xfc00707f, 0x10002057), (0xfc00707f, 0x14002057),
      (0xfc00707f, 0x18002057), (0xfc00707f, 0x1c002057), (0xfc00707f, 0x20002057),
      (0xfc00707f, 0x24002057), (0xfc00707f, 0x28002057), (0xfc00707f, 0x2c002057),
      (0xfc00707f, 0x30002057), (0xfc00707f, 0x34002057), (0xfe0ff07f, 0x42002057),
      (0xfc0ff07f, 0x40082057), (0xfc0ff07f, 0x4008a057), (0xfc0ff07f, 0x48012057),
      (0xfc0ff07f, 0x4801a057), (0xfc0ff07f, 0x48022057), (0xfc0ff07f, 0x4802a057),
      (0xfc0ff07f, 0x48032057), (0xfc0ff07f, 0x4803a057), (0xfc0ff07f, 0x48042057),
      (0xfc0ff07f, 0x4804a057), (0xfc0ff07f, 0x48052057), (0xfc0ff07f, 0x48062057),
      (0xfc0ff07f, 0x4806a057), (0xfc0ff07f, 0x48072057), (0xfc0ff07f, 0x5000a057),
      (0xfc0ff07f, 0x50012057), (0xfc0ff07f, 0x5001a057), (0xfc0ff07f, 0x50082057),
      (0xfdfff07f, 0x5008a057), (0xfc00707f, 0x5c002057), (0xfc00707f, 0x60002057),
      (0xfc00707f, 0x64002057), (0xfc00707f, 0x68002057), (0xfc00707f, 0x6c002057),
      (0xfc00707f, 0x70002057), (0xfc00707f, 0x74002057), (0xfc00707f, 0x78002057),
      (0xfc00707f, 0x7c002057), (0xfc00707f, 0x3057), (0xfc00707f, 0xc003057),
      (0xfc00707f, 0x24003057), (0xfc00707f, 0x28003057), (0xfc00707f, 0x2c003057),
      (0xfc00707f, 0x30003057), (0xfc00707f, 0x38003057), (0xfc00707f, 0x3c003057),
      (0xfe00707f, 0x40003057), (0xfc00707f, 0x44003057), (0xf800707f, 0x50003057),
      (0xfe00707f, 0x5c003057), (0xfff0707f, 0x5e003057), (0xfc00707f, 0x60003057),
      (0xfc00707f, 0x64003057), (0xfc00707f, 0x70003057), (0xfc00707f, 0x74003057),
      (0xfc00707f, 0x78003057), (0xfc00707f, 0x7c003057), (0xfc00707f, 0x4057),
      (0xfc00707f, 0x4004057), (0xfc00707f, 0x8004057), (0xfc00707f, 0xc004057),
      (0xfc00707f, 0x10004057), (0xfc00707f, 0x14004057), (0xfc00707f, 0x18004057),
      (0xfc00707f, 0x1c004057), (0xfc00707f, 0x24004057), (0xfc00707f, 0x28004057),
      (0xfc00707f, 0x2c004057), (0xfc00707f, 0x30004057), (0xfc00707f, 0x38004057),
      (0xfc00707f, 0x3c004057), (0xfe00707f, 0x40004057), (0xfc00707f, 0x44004057),
      (0xfe00707f, 0x48004057), (0xfc00707f, 0x4c004057), (0xfc00707f, 0x50004057),
      (0xfc00707f, 0x54004057), (0xfe00707f, 0x5c004057), (0xfff0707f, 0x5e004057),
      (0xfc00707f, 0x60004057), (0xfc00707f, 0x64004057), (0xfc00707f, 0x68004057),
      (0xfc00707f, 0x6c004057), (0xfc00707f, 0x70004057), (0xfc00707f, 0x74004057),
      (0xfc00707f, 0x78004057), (0xfc00707f, 0x7c004057), (0xfc00707f, 0x5057),
      (0xfc00707f, 0x8005057), (0xfc00707f, 0x10005057), (0xfc00707f, 0x18005057),
      (0xfc00707f, 0x20005057), (0xfc00707f, 0x24005057), (0xfc00707f, 0x28005057),
      (0xfc00707f, 0x38005057), (0xfc00707f, 0x3c005057), (0xfff0707f, 0x42005057),
      (0xfe00707f, 0x5c005057), (0xfff0707f, 0x5e005057), (0xfc00707f, 0x60005057),
      (0xfc00707f, 0x64005057), (0xfc00707f, 0x6c005057), (0xfc00707f, 0x70005057),
      (0xfc00707f, 0x74005057), (0xfc00707f, 0x7c005057), (0xfc00707f, 0x20006057),
      (0xfc00707f, 0x24006057), (0xfc00707f, 0x28006057), (0xfc00707f, 0x2c006057),
      (0xfc00707f, 0x30006057), (0xfc00707f, 0x34006057), (0xfc00707f, 0x38006057),
      (0xfc00707f, 0x3c006057), (0xfff0707f, 0x42006057), (0x8000707f, 0x7057),
      (0xfc00707f, 0x80000057), (0xfc00707f, 0x84000057), (0xfc00707f, 0x88000057),
      (0xfc00707f, 0x8c000057), (0xfc00707f, 0x94000057), (0xfc00707f, 0x9c000057),
      (0xfc00707f, 0xa0000057), (0xfc00707f, 0xa4000057), (0xfc00707f, 0xa8000057),
      (0xfc00707f, 0xac000057), (0xfc00707f, 0xb0000057), (0xfc00707f, 0xb4000057),
      (0xfc00707f, 0xb8000057), (0xfc00707f, 0xbc000057), (0xfc00707f, 0xc0000057),
      (0xfc00707f, 0xc4000057), (0xfc00707f, 0xd4000057), (0xfc00707f, 0x80001057),
      (0xfc00707f, 0x90001057), (0xfc00707f, 0xa0001057), (0xfc00707f, 0xa4001057),
      (0xfc00707f, 0xa8001057), (0xfc00707f, 0xac001057), (0xfc00707f, 0xb0001057),
      (0xfc00707f, 0xb4001057), (0xfc00707f, 0xb8001057), (0xfc00707f, 0xbc001057),
      (0xfc00707f, 0xc0001057), (0xfc00707f, 0xc4001057), (0xfc00707f, 0xc8001057),
      (0xfc00707f, 0xcc001057), (0xfc00707f, 0xd0001057), (0xfc00707f, 0xd8001057),
      (0xfc00707f, 0xe0001057), (0xfc00707f, 0xec001057), (0xfc00707f, 0xf0001057),
      (0xfc00707f, 0xf4001057), (0xfc00707f, 0xf8001057), (0xfc00707f, 0xfc001057),
      (0xfc00707f, 0x80002057), (0xfc00707f, 0x84002057), (0xfc00707f, 0x88002057),
      (0xfc00707f, 0x8c002057), (0xfc00707f, 0x90002057), (0xfc00707f, 0x94002057),
      (0xfc00707f, 0x98002057), (0xfc00707f, 0x9c002057), (0xfc00707f, 0xa4002057),
      (0xfc00707f, 0xac002057), (0xfc00707f, 0xb4002057), (0xfc00707f, 0xbc002057),
      (0xfc00707f, 0xc0002057), (0xfc00707f, 0xc4002057), (0xfc00707f, 0xc8002057),
      (0xfc00707f, 0xcc002057), (0xfc00707f, 0xd0002057), (0xfc00707f, 0xd4002057),
      (0xfc00707f, 0xd8002057), (0xfc00707f, 0xdc002057), (0xfc00707f, 0xe0002057),
      (0xfc00707f, 0xe8002057), (0xfc00707f, 0xec002057), (0xfc00707f, 0xf0002057),
      (0xfc00707f, 0xf4002057), (0xfc00707f, 0xfc002057), (0xfc00707f, 0x80003057),
      (0xfc00707f, 0x84003057), (0xfc00707f, 0x94003057), (0xfe0ff07f, 0x9e003057),
      (0xfe0ff07f, 0x9e00b057), (0xfe0ff07f, 0x9e01b057), (0xfe0ff07f, 0x9e03b057),
      (0xfc00707f, 0xa0003057), (0xfc00707f, 0xa4003057), (0xfc00707f, 0xa8003057),
      (0xfc00707f, 0xac003057), (0xfc00707f, 0xb0003057), (0xfc00707f, 0xb4003057),
      (0xfc00707f, 0xb8003057), (0xfc00707f, 0xbc003057), (0xfc00707f, 0xd4003057),
      (0xfc00707f, 0x80004057), (0xfc00707f, 0x84004057), (0xfc00707f, 0x88004057),
      (0xfc00707f, 0x8c004057), (0xfc00707f, 0x94004057), (0xfc00707f, 0x9c004057),
      (0xfc00707f, 0xa0004057), (0xfc00707f, 0xa4004057), (0xfc00707f, 0xa8004057),
      (0xfc00707f, 0xac004057), (0xfc00707f, 0xb0004057), (0xfc00707f, 0xb4004057),
      (0xfc00707f, 0xb8004057), (0xfc00707f, 0xbc004057), (0xfc00707f, 0xd4004057),
      (0xfc00707f, 0x80005057), (0xfc00707f, 0x84005057), (0xfc00707f, 0x90005057),
      (0xfc00707f, 0x9c005057), (0xfc00707f, 0xa0005057), (0xfc00707f, 0xa4005057),
      (0xfc00707f, 0xa8005057), (0xfc00707f, 0xac005057), (0xfc00707f, 0xb0005057),
      (0xfc00707f, 0xb4005057), (0xfc00707f, 0xb8005057), (0xfc00707f, 0xbc005057),
      (0xfc00707f, 0xc0005057), (0xfc00707f, 0xc8005057), (0xfc00707f, 0xd0005057),
      (0xfc00707f, 0xd8005057), (0xfc00707f, 0xe0005057), (0xfc00707f, 0xec005057),
      (0xfc00707f, 0xf0005057), (0xfc00707f, 0xf4005057), (0xfc00707f, 0xf8005057),
      (0xfc00707f, 0xfc005057), (0xfc00707f, 0x80006057), (0xfc00707f, 0x84006057),
      (0xfc00707f, 0x88006057), (0xfc00707f, 0x8c006057), (0xfc00707f, 0x90006057),
      (0xfc00707f, 0x94006057), (0xfc00707f, 0x98006057), (0xfc00707f, 0x9c006057),
      (0xfc00707f, 0xa4006057), (0xfc00707f, 0xac006057), (0xfc00707f, 0xb4006057),
      (0xfc00707f, 0xbc006057), (0xfc00707f, 0xc0006057), (0xfc00707f, 0xc4006057),
      (0xfc00707f, 0xc8006057), (0xfc00707f, 0xcc006057), (0xfc00707f, 0xd0006057),
      (0xfc00707f, 0xd4006057), (0xfc00707f, 0xd8006057), (0xfc00707f, 0xdc006057),
      (0xfc00707f, 0xe0006057), (0xfc00707f, 0xe8006057), (0xfc00707f, 0xec006057),
      (0xfc00707f, 0xf0006057), (0xfc00707f, 0xf4006057), (0xfc00707f, 0xf8006057),
      (0xfc00707f, 0xfc006057), (0xfe00707f, 0x80007057), (0xc000707f, 0xc0007057)]

/-- `insn & 0x7f == 0x5b`. -/
def rows5B : List Row :=
    exits [
      (0x707f, 0x5b), (0xfc00707f, 0x105b), (0xfc00707f, 0x505b),
      (0xfc00707f, 0x4000505b)]

/-- `insn & 0x7f == 0x63`. -/
def rows63 : List Row :=
    [
      ⟨0x707f, 0x63, fun i => transBeq (extractB i)⟩,
      ⟨0x707f, 0x1063, fun i => transBne (extractB i)⟩,
      ⟨0x707f, 0x4063, fun i => transBlt (extractB i)⟩,
      ⟨0x707f, 0x5063, fun i => transBge (extractB i)⟩,
      ⟨0x707f, 0x6063, fun i => transBltu (extractB i)⟩,
      ⟨0x707f, 0x7063, fun i => transBgeu (extractB i)⟩]

/-- `insn & 0x7f == 0x67`. -/
def rows67 : List Row :=
    [
      ⟨0x707f, 0x67, fun i => transJalr (extractI i)⟩]

/-- `insn & 0x7f == 0x6f`. -/
def rows6F : List Row :=
    [
      ⟨0x7f, 0x6f, fun i => transJal (extractJ i)⟩]

/-- `insn & 0x7f == 0x73`. -/
def rows73 : List Row :=
    [
      ⟨0xffffffff, 0x73, fun _ => transEcall⟩,
      ⟨0xffffffff, 0x100073, fun _ => transEbreak⟩] ++
    exits [
      (0xffffffff, 0x200073), (0xffffffff, 0xd00073), (0xffffffff, 0x1d00073)] ++
    [
      ⟨0xffffffff, 0x10200073, fun _ => transSret⟩] ++
    exits [
      (0xfff07fff, 0x10400073)] ++
    [
      ⟨0xffffffff, 0x10500073, fun _ => transWfi⟩,
      ⟨0xfe007fff, 0x12000073, fun i => transSfenceVma (extractSfenceVma i)⟩] ++
    exits [
      (0xfe007fff, 0x16000073), (0xffffffff, 0x18000073), (0xffffffff, 0x18100073),
      (0xfe007fff, 0x22000073), (0xfe007fff, 0x26000073)] ++
    [
      ⟨0xffffffff, 0x30200073, fun _ => transMret⟩] ++
    exits [
      (0xfe007fff, 0x62000073), (0xfe007fff, 0x66000073)] ++
    [
      ⟨0x707f, 0x1073, fun i => transCsrrw (extractCsr i)⟩,
      ⟨0x707f, 0x2073, fun i => transCsrrs (extractCsr i)⟩,
      ⟨0x707f, 0x3073, fun i => transCsrrc (extractCsr i)⟩] ++
    exits [
      (0xfff0707f, 0x60004073), (0xfff0707f, 0x60104073), (0xfff0707f, 0x64004073),
      (0xfff0707f, 0x64104073), (0xfff0707f, 0x64304073), (0xfff0707f, 0x68004073),
      (0xfff0707f, 0x68104073), (0xfff0707f, 0x68304073), (0xfff0707f, 0x6c004073),
      (0xfe007fff, 0x62004073), (0xfe007fff, 0x66004073), (0xfe007fff, 0x6a004073),
      (0xfe007fff, 0x6e004073), (0xfffff07f, 0xcdc04073), (0xffffffff, 0xcdc0c073),
      (0xffffffff, 0xcdc2c073), (0xb3c0707f, 0x81c04073), (0xffffffff, 0xce104073),
      (0xffffffff, 0xce504073), (0xb200707f, 0x82004073)] ++
    [
      ⟨0x707f, 0x5073, fun i => transCsrrwi (extractCsr i)⟩,
      ⟨0x707f, 0x6073, fun i => transCsrrsi (extractCsr i)⟩,
      ⟨0x707f, 0x7073, fun i => transCsrrci (extractCsr i)⟩]

/-- `insn & 0x7f == 0x77`. -/
def rows77 : List Row :=
    exits [
      (0xfe00707f, 0x82002077), (0xfe00707f, 0x86002077), (0xfe00707f, 0x8a002077),
      (0xfe0ff07f, 0xa2002077), (0xfe0ff07f, 0xa200a077), (0xfe0ff07f, 0xa2012077),
      (0xfe0ff07f, 0xa201a077), (0xfe0ff07f, 0xa2082077), (0xfe0ff07f, 0xa208a077),
      (0xfe0ff07f, 0xa6002077), (0xfe0ff07f, 0xa600a077), (0xfe0ff07f, 0xa6012077),
      (0xfe0ff07f, 0xa601a077), (0xfe0ff07f, 0xa603a077), (0xfe0ff07f, 0xa6082077),
      (0xfe00707f, 0xaa002077), (0xfe00707f, 0xae002077), (0xfe00707f, 0xb2002077),
      (0xfe00707f, 0xb6002077), (0xfe00707f, 0xba002077), (0xfe00707f, 0xbe002077)]

/-- `insn & 0x7f == 0x7b`. -/
def rows7B : List Row :=
    exits [
      (0xfe00707f, 0x7b), (0xfe00707f, 0x107b), (0xfe00707f, 0x507b),
      (0xfe00707f, 0x200007b), (0xfe00707f, 0x200407b), (0xfe00707f, 0x200507b),
      (0xfe00707f, 0x200607b), (0xfe00707f, 0x200707b), (0xfe00707f, 0x4000007b),
      (0xfe00707f, 0x4000507b)]

/-- The outermost switch of `decode_insn32`. -/
def rows32 (insn : BitVec 32) : List Row :=
  let opcode := insn &&& 0x7f
  if opcode = 0x03 then rows03
  else if opcode = 0x07 then rows07
  else if opcode = 0x0f then rows0F
  else if opcode = 0x13 then rows13
  else if opcode = 0x17 then rows17
  else if opcode = 0x1b then rows1B
  else if opcode = 0x23 then rows23
  else if opcode = 0x27 then rows27
  else if opcode = 0x2f then rows2F
  else if opcode = 0x33 then rows33
  else if opcode = 0x37 then rows37
  else if opcode = 0x3b then rows3B
  else if opcode = 0x43 then rows43
  else if opcode = 0x47 then rows47
  else if opcode = 0x4b then rows4B
  else if opcode = 0x4f then rows4F
  else if opcode = 0x53 then rows53
  else if opcode = 0x57 then rows57
  else if opcode = 0x5b then rows5B
  else if opcode = 0x63 then rows63
  else if opcode = 0x67 then rows67
  else if opcode = 0x6f then rows6F
  else if opcode = 0x73 then rows73
  else if opcode = 0x77 then rows77
  else if opcode = 0x7b then rows7B
  else []

/-- The bodies `decode_insn32` tries on a word, in order. -/
def decodeInsn32 (insn : BitVec 32) : List Body :=
  (rows32 insn).filterMap fun r =>
    if insn &&& r.mask = r.value then some (r.body insn) else none

end CPUDelaySim.Riscv
