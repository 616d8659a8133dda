import CPUDelaySim.Common.DecodeInfo

/-!
# The architectural state

`struct ArchState` of `arch/riscv/archstate.h` is a block of 64-bit words which
the simulator addresses in two ways: by field name, and by byte offset through
`DecodeInfo::dst_idx`.  The model keys the block by its words.  `StateWord` lists
the words that some modelled function reads or writes, `StateWord.offset` is the
`ARCH_*` constant of each, and `fieldAt` inverts it.

Two fields are narrower than a word.  `frm` is the byte at offset 512 and
`fp_status` starts at 514 with the 16 bits of `float_exception_flags`, followed
by the byte `float_rounding_mode`; together they are the word `fp`, and a masked
write at offset 514 is a write to that word shifted by 16 bits.

The words `badaddr`, `priv_ver`, `miclaim`, `sie`, `stimecmp` and
`pmp_table.num_rules` are used by no modelled function and are left out.
-/

namespace CPUDelaySim.Riscv

/-- The 64-bit words of `ArchState`. -/
inductive StateWord
  | gpr (i : BitVec 5)
  | fpr (i : BitVec 5)
  /-- `frm`, `fp_status.float_exception_flags`, `fp_status.float_rounding_mode`. -/
  | fp
  | loadRes | loadVal | misa | priv | menvcfg | senvcfg
  | mhartid | mvendorid | marchid | mimpid
  | mstatus | mip | mie | mideleg | satp | stval | medeleg | stvec | sepc | scause
  | mtvec | mepc | mcause | mtval | scounteren | mcounteren | mcountinhibit
  | sscratch | mscratch
  | pmpcfg (i : BitVec 1)
  | pmpaddr (i : BitVec 4)
  deriving DecidableEq

namespace StateWord

/-- The `ARCH_*` byte offset of a word. -/
def offset : StateWord → Nat
  | gpr i => i.toNat * 8
  | fpr i => i.toNat * 8 + 256
  | fp => 512
  | loadRes => 536
  | loadVal => 544
  | misa => 568
  | priv => 576
  | menvcfg => 584
  | senvcfg => 592
  | mhartid => 600
  | mvendorid => 608
  | marchid => 616
  | mimpid => 624
  | mstatus => 632
  | mip => 640
  | mie => 656
  | mideleg => 664
  | satp => 680
  | stval => 688
  | medeleg => 696
  | stvec => 704
  | sepc => 712
  | scause => 720
  | mtvec => 728
  | mepc => 736
  | mcause => 744
  | mtval => 752
  | scounteren => 760
  | mcounteren => 768
  | mcountinhibit => 776
  | sscratch => 784
  | mscratch => 792
  | pmpcfg i => i.toNat * 8 + 808
  | pmpaddr i => i.toNat * 8 + 824

/-- The offset as the 16-bit `dst_idx` holds it. -/
def idx (w : StateWord) : BitVec 16 := BitVec.ofNat 16 w.offset

/-- Every word is inside `ArchState`. -/
theorem offset_lt (w : StateWord) : w.offset < 952 := by
  cases w <;> simp only [offset] <;> omega

/-- The offset fits the field of a destination. -/
@[simp] theorem idx_toNat (w : StateWord) : w.idx.toNat = w.offset := by
  have := w.offset_lt
  simp only [idx, BitVec.toNat_ofNat]
  omega

end StateWord

/-- The single words among the fields, by byte offset. -/
def scalarAt : Nat → Option StateWord
  | 512 => some .fp
  | 536 => some .loadRes
  | 544 => some .loadVal
  | 568 => some .misa
  | 576 => some .priv
  | 584 => some .menvcfg
  | 592 => some .senvcfg
  | 600 => some .mhartid
  | 608 => some .mvendorid
  | 616 => some .marchid
  | 624 => some .mimpid
  | 632 => some .mstatus
  | 640 => some .mip
  | 656 => some .mie
  | 664 => some .mideleg
  | 680 => some .satp
  | 688 => some .stval
  | 696 => some .medeleg
  | 704 => some .stvec
  | 712 => some .sepc
  | 720 => some .scause
  | 728 => some .mtvec
  | 736 => some .mepc
  | 744 => some .mcause
  | 752 => some .mtval
  | 760 => some .scounteren
  | 768 => some .mcounteren
  | 776 => some .mcountinhibit
  | 784 => some .sscratch
  | 792 => some .mscratch
  | _ => none

/-- The word a `uint64_t` access at a byte offset of `ArchState` reaches, with
the position of its lowest bit in that word.  `fp_status` is the one field that
does not start on a word boundary. -/
def fieldAt (off : Nat) : Option (StateWord × Nat) :=
  if off = 514 then some (.fp, 16)
  else if off % 8 ≠ 0 then none
  else if off < 256 then some (.gpr (BitVec.ofNat 5 (off / 8)), 0)
  else if off < 512 then some (.fpr (BitVec.ofNat 5 ((off - 256) / 8)), 0)
  else if 808 ≤ off ∧ off < 824 then some (.pmpcfg (BitVec.ofNat 1 ((off - 808) / 8)), 0)
  else if 824 ≤ off ∧ off < 952 then some (.pmpaddr (BitVec.ofNat 4 ((off - 824) / 8)), 0)
  else (scalarAt off).map fun w => (w, 0)

/-- `ARCH_FFLAGS`, the offset of `fp_status.float_exception_flags`. -/
def archFflags : BitVec 16 := 514

/-- The offset of the flags is inside the word of the unit. -/
@[simp] theorem fieldAt_archFflags : fieldAt archFflags.toNat = some (.fp, 16) := rfl

/-- The offset of a word is that word. -/
@[simp] theorem fieldAt_offset (w : StateWord) : fieldAt w.offset = some (w, 0) := by
  generalize here : w.offset = off
  cases w with
  | gpr i | fpr i | pmpcfg i | pmpaddr i =>
      have := i.isLt
      simp only [StateWord.offset] at here
      unfold fieldAt
      split_ifs <;> first | omega | (subst here; simp)
  | _ => subst here; rfl

/-- The state block, read by word. -/
@[ext] structure ArchState where
  get : StateWord → Word

namespace ArchState

/-- `memset(state, 0, sizeof(ArchState))`. -/
def zero : ArchState := ⟨fun _ => 0⟩

/-- Assignment to one word. -/
def set (s : ArchState) (w : StateWord) (v : Word) : ArchState :=
  ⟨fun w' => if w' = w then v else s.get w'⟩

/-- A word that is written is read back. -/
@[simp] theorem get_set_self (s : ArchState) (w : StateWord) (v : Word) :
    (s.set w v).get w = v := if_pos rfl

/-- A write changes one word. -/
theorem get_set (s : ArchState) (w w' : StateWord) (v : Word) :
    (s.set w v).get w' = if w' = w then v else s.get w' := rfl

/-- A write leaves the other words. -/
theorem get_set_of_ne (s : ArchState) {w w' : StateWord} (v : Word) (distinct : w' ≠ w) :
    (s.set w v).get w' = s.get w' := if_neg distinct

/-- Writing what is there changes nothing. -/
@[simp] theorem set_get (s : ArchState) (w : StateWord) : s.set w (s.get w) = s := by
  ext w'
  by_cases h : w' = w
  · subst h; simp
  · simp [get_set_of_ne s _ h]

/-- The last write counts. -/
@[simp] theorem set_set (s : ArchState) (w : StateWord) (v v' : Word) :
    (s.set w v).set w v' = s.set w v' := by
  ext w'
  by_cases h : w' = w
  · subst h; simp
  · simp [get_set_of_ne _ _ h]

/-- Assignments to two words commute. -/
theorem set_comm (s : ArchState) {w w' : StateWord} (v v' : Word) (distinct : w ≠ w') :
    (s.set w v).set w' v' = (s.set w' v').set w v := by
  ext u
  by_cases h : u = w
  · subst h; simp [get_set_of_ne _ _ distinct]
  · by_cases h' : u = w'
    · subst h'; simp [get_set_of_ne _ _ h]
    · simp [get_set_of_ne _ _ h, get_set_of_ne _ _ h']

/-- `*dst_addr = ((*dst_addr) & ~dst_mask[i]) | (dst_data[i] & dst_mask[i])` with
`dst_addr = (uint8_t*)state + dst_idx[i]`.  A cleared mask stores back what it
reads, wherever the stale offset points. -/
def commit (s : ArchState) (d : Dst) : Except Abort ArchState :=
  if d.mask = 0#64 then .ok s
  else
    match fieldAt d.idx.toNat with
    | some (w, shift) =>
        .ok (s.set w (mergeMask (s.get w) (d.mask <<< shift) (d.data <<< shift)))
    | none => .error .badOffset

/-- A destination with an empty mask writes nothing. -/
theorem commit_of_mask_zero (s : ArchState) {d : Dst} (cleared : d.mask = 0#64) :
    s.commit d = .ok s := if_pos cleared

/-- A destination aimed at a field by its own offset merges into that field. -/
theorem commit_idx (s : ArchState) (w : StateWord) (mask data : Word) :
    s.commit ⟨w.idx, mask, data⟩ = .ok (s.set w (mergeMask (s.get w) mask data)) := by
  unfold commit
  by_cases cleared : mask = 0#64
  · simp [cleared]
  · simp [cleared]

/-- What a commit leaves alone: every word but the one its offset names. -/
theorem commit_get_of_ne {s s' : ArchState} {d : Dst} (h : s.commit d = .ok s')
    (w : StateWord) (apart : d.mask = 0#64 ∨ ∀ shift, fieldAt d.idx.toNat ≠ some (w, shift)) :
    s'.get w = s.get w := by
  unfold commit at h
  split at h
  · cases h; rfl
  · rename_i live
    split at h
    · rename_i target shift found
      cases h
      refine get_set_of_ne _ _ ?_
      rintro rfl
      rcases apart with cleared | apart
      · exact live cleared
      · exact apart shift found
    · cases h

/-- `state->frm`. -/
def frm (s : ArchState) : Byte := (s.get .fp).extractLsb' 0 8

/-- `state->fp_status.float_exception_flags`. -/
def floatExceptionFlags (s : ArchState) : BitVec 16 := (s.get .fp).extractLsb' 16 16

/-- `state->fp_status.float_rounding_mode`. -/
def floatRoundingMode (s : ArchState) : Byte := (s.get .fp).extractLsb' 32 8

/-- Assignment to `fp_status.float_exception_flags`. -/
def setFlags (s : ArchState) (flags : BitVec 16) : ArchState :=
  s.set .fp (mergeMask (s.get .fp) 0xffff0000 (flags.setWidth 64 <<< 16))

/-- `setrm`: assignment to `fp_status.float_rounding_mode`. -/
def setrm (s : ArchState) (rm : BitVec 3) : ArchState :=
  s.set .fp (mergeMask (s.get .fp) 0xff00000000 (rm.setWidth 64 <<< 32))

end ArchState

end CPUDelaySim.Riscv
