import CPUDelaySim.Riscv.DecodeSpec

/-!
# Bodies as patches of the record

A body never branches on what the reused record held, so all it does to the record is
to overwrite some of its fields.  `Patch` lists the fields with the value each gets, if
any; `exec_uniform` says that a body stops for one reason on all records, or moves the
machine to one state and applies one patch, and `PatchSpec` which fields a patch has.

The fields without a value are the stale ones: what `updateEnv` reads of them is left
over from the instruction that used the record before.

There is one lemma for each shape of `Body`, and it states both what the patch contains and which
exception it raises, so no later module evaluates a body to find out.  `BodyPatch` is the form the
lemmas share: the result of the body on all records that hold one word and one size.

`CsrOps.Guarded` is checked row by row on the table: a write that is refused has not gone through
the floating-point guard before.
-/

namespace CPUDelaySim.Riscv

variable {δ : Type}

open RiscvArch

/-- The fields of `DecodeInfo` a body overwrites. -/
@[ext] structure Patch where
  dst0 : Option Dst
  idx1 : Option (BitVec 16)
  mask1 : Option Word
  data1 : Option Word
  idx2 : Option (BitVec 16)
  mask2 : Option Word
  data2 : Option Word
  exception : Option Word
  excData : Option Word
  type : Option InstType

namespace Patch

/-- The patch that overwrites nothing. -/
def empty : Patch := ⟨none, none, none, none, none, none, none, none, none, none⟩

/-- The record with what the body has set. -/
def apply (p : Patch) (i : DecodeInfo) : DecodeInfo :=
  { i with
    dst0 := p.dst0.getD i.dst0
    dst1 := ⟨p.idx1.getD i.dst1.idx, p.mask1.getD i.dst1.mask, p.data1.getD i.dst1.data⟩
    dst2 := ⟨p.idx2.getD i.dst2.idx, p.mask2.getD i.dst2.mask, p.data2.getD i.dst2.data⟩
    exception := p.exception.getD i.exception
    excData := p.excData.getD i.excData
    type := p.type.getD i.type }

/-! The updates of the record, as updates of the patch. -/

/-- An exception is set. -/
def raise (p : Patch) (code : Word) : Patch := { p with exception := some code }

def setExcData (p : Patch) (data : Word) : Patch := { p with excData := some data }

def setType (p : Patch) (type : InstType) : Patch := { p with type := some type }

def setDst0 (p : Patch) (w : StateWord) (data : Word) : Patch :=
  { p with dst0 := some (Dst.full w data) }

def setDst1 (p : Patch) (d : Dst) : Patch :=
  { p with idx1 := some d.idx, mask1 := some d.mask, data1 := some d.data }

def setDst2 (p : Patch) (d : Dst) : Patch :=
  { p with idx2 := some d.idx, mask2 := some d.mask, data2 := some d.data }

def setData1 (p : Patch) (data : Word) : Patch := { p with data1 := some data }

def setData2 (p : Patch) (data : Word) : Patch := { p with data2 := some data }

def setWidth2 (p : Patch) (n : Nat) : Patch := { p with idx2 := some (BitVec.ofNat 16 n) }

/-- A default does not change what is there. -/
theorem getD_getD {α : Type} (o : Option α) (a : α) : o.getD (o.getD a) = o.getD a := by
  cases o <;> rfl

/-- A patch overwrites what it overwrites: applied again after the record was cleared,
it leaves the record it left before. -/
theorem apply_cleared (p : Patch) (i : DecodeInfo) :
    p.apply (cleared (p.apply (cleared i))) = p.apply (cleared i) := by
  have dst0 : p.dst0.getD (p.dst0.getD i.dst0.clear).clear = p.dst0.getD i.dst0.clear := by
    cases p.dst0 <;> rfl
  simp only [apply, cleared, DecodeInfo.memset, Dst.clear, getD_getD]
  simp only [Dst.clear] at dst0
  rw [dst0]

end Patch

/-- The fields of the record a body reads. -/
def Holds (word : BitVec 32) (size : Byte) (i : DecodeInfo) : Prop :=
  i.inst = word ∧ i.instSize = size

/-- The results of a computation on a patched record. -/
def Patched {α : Type} (Q : α → RiscvArch δ → Patch → Prop) (g : DecodeInfo → α × Ctx δ) :
    Prop :=
  ∃ v a p, g = (fun i => (v, ⟨a, p.apply i⟩)) ∧ Q v a p

/-- The same without a value. -/
def PatchedCtx (Q : RiscvArch δ → Patch → Prop) (g : DecodeInfo → Ctx δ) : Prop :=
  ∃ a p, g = (fun i => ⟨a, p.apply i⟩) ∧ Q a p

/-! ### Loads and stores -/

/-- Translating the address of an access reports an exception. -/
def TranslateFaults (P : Platform δ) (a : RiscvArch δ) (va : Word) (type : FetchType) : Prop :=
  ∃ ha exception a', a.translateAddr P va type excNone = .ok (ha, exception, a') ∧
    exceptionValid exception = true

/-- A load or store ends in a fault. -/
def AccessFaults (P : Platform δ) (width : Width) (a : RiscvArch δ) (va : Word)
    (type : FetchType) : Prop :=
  width.misaligned va = true ∨ TranslateFaults P a va type

/-- A load sets the same fields whatever the record held: its exception, if the page walk
faults, and the address. -/
theorem ld_uniform (P : Platform δ) (width : Width) (a : RiscvArch δ) (p : Patch) (va : Word)
    (word : BitVec 32) (size : Byte) :
    Uniform (Holds word size) (fun i => ld P width ⟨a, p.apply i⟩ va)
      (Patched fun _ _ p' =>
        (AccessFaults P width a va .lfetch ∧ ∃ code ∈ [excLAM, excLPF], p' = p.raise code) ∨
          (¬ AccessFaults P width a va .lfetch ∧ p' = p.setWidth2 width.bytes)) := by
  cases misaligned : width.misaligned va with
  | true =>
      simp only [ld, misaligned, if_true]
      exact uniform_ok _ _ ⟨0, a, p.raise excLAM, rfl, .inl ⟨.inl misaligned, excLAM, by simp, rfl⟩⟩
  | false =>
      simp only [ld, misaligned, Bool.false_eq_true, if_false]
      cases translated : a.translateAddr P va .lfetch excNone with
      | error e => exact uniform_error _ e _
      | ok r =>
          obtain ⟨ha, exception, a'⟩ := r
          cases valid : exceptionValid exception with
          | true =>
              refine .inr ⟨_, ⟨0, a', p.raise excLPF, rfl, .inl ⟨?_, excLPF, by simp, rfl⟩⟩, ?_⟩
              · exact .inr ⟨ha, exception, a', translated, valid⟩
              · intro i _
                dsimp only [bind, Except.bind]
                rw [if_pos valid]
                rfl
          | false =>
              have loads : ¬ AccessFaults P width a va .lfetch := by
                rintro (h | ⟨ha', exception', a'', translated', valid'⟩)
                · rw [misaligned] at h
                  cases h
                · rw [translated] at translated'
                  cases translated'
                  rw [valid] at valid'
                  cases valid'
              cases read : a'.paddrRead P ha width.bytes P.junk with
              | error e =>
                  refine .inl ⟨e, ?_⟩
                  intro i _
                  dsimp only [bind, Except.bind]
                  rw [if_neg (by simp [valid]), read]
              | ok r =>
                  obtain ⟨data, plain, a''⟩ := r
                  refine .inr ⟨_, ⟨width.extend data, a'', p.setWidth2 width.bytes, rfl,
                    .inr ⟨loads, rfl⟩⟩, ?_⟩
                  intro i _
                  dsimp only [bind, Except.bind]
                  rw [if_neg (by simp [valid]), read]
                  rfl

/-- So does the check of a store. -/
theorem st_uniform (P : Platform δ) (width : Width) (a : RiscvArch δ) (p : Patch) (va : Word)
    (word : BitVec 32) (size : Byte) :
    Uniform (Holds word size) (fun i => st P width ⟨a, p.apply i⟩ va)
      (PatchedCtx fun _ p' =>
        (AccessFaults P width a va .sfetch ∧ ∃ code ∈ [excSAM, excSPF], p' = p.raise code) ∨
          (¬ AccessFaults P width a va .sfetch ∧
            ∃ ha, p' = (p.setWidth2 width.bytes).setData2 ha)) := by
  cases misaligned : width.misaligned va with
  | true =>
      simp only [st, misaligned, if_true]
      exact uniform_ok _ _ ⟨a, p.raise excSAM, rfl, .inl ⟨.inl misaligned, excSAM, by simp, rfl⟩⟩
  | false =>
      simp only [st, misaligned, Bool.false_eq_true, if_false]
      cases translated : a.translateAddr P va .sfetch excNone with
      | error e => exact uniform_error _ e _
      | ok r =>
          obtain ⟨ha, exception, a'⟩ := r
          cases valid : exceptionValid exception with
          | true =>
              refine .inr ⟨_, ⟨a', p.raise excSPF, rfl, .inl ⟨?_, excSPF, by simp, rfl⟩⟩, ?_⟩
              · exact .inr ⟨ha, exception, a', translated, valid⟩
              · intro i _
                dsimp only [bind, Except.bind]
                rw [if_pos valid]
                rfl
          | false =>
              refine .inr ⟨_, ⟨a', (p.setWidth2 width.bytes).setData2 ha, rfl,
                .inr ⟨?_, ha, rfl⟩⟩, ?_⟩
              · rintro (h | ⟨ha', exception', a'', translated', valid'⟩)
                · rw [misaligned] at h
                  cases h
                · rw [translated] at translated'
                  cases translated'
                  rw [valid] at valid'
                  cases valid'
              · intro i _
                dsimp only [bind, Except.bind]
                rw [if_neg (by simp [valid])]
                rfl

/-! ### CSR accesses -/

/-- The read callback raises `EXC_II`. -/
def CsrOps.readRaises (ops : CsrOps) (s : ArchState) : Bool :=
  match ops.read with
  | some (.fp _) => !s.fpEnabled
  | some .illegal => true
  | _ => false

/-- The write callback raises `EXC_II`. -/
def CsrOps.writeRaises (ops : CsrOps) (s : ArchState) : Bool :=
  match ops.write with
  | some (.fp _ _ _) => !s.fpEnabled
  | some .illegal => true
  | _ => false

/-- An access with a write mask raises `EXC_II` in a callback. -/
def CsrOps.raises (ops : CsrOps) (mask : Word) (s : ArchState) : Bool :=
  match ops.op with
  | some _ => false
  | none => ops.readRaises s || (mask != 0#64 && ops.writeRaises s)

/-- No entry reads behind the floating-point guard and refuses the write. -/
def CsrOps.Guarded (ops : CsrOps) : Prop :=
  ∀ value, ops.read = some (.fp value) → ops.write ≠ some .illegal

/-- The callbacks of every row of `csr_ops` look at the unit before they do anything for it. -/
theorem csrTable_guarded : ∀ r ∈ csrTable, ∀ csrno, (r.ops csrno).Guarded := by
  simp only [csrTable, List.forall_mem_cons, CsrRow.one, CsrOps.rw, CsrOps.ro, CsrOps.rmw]
  refine ⟨?_, ?_, ?_, ?_, ?_, ?_, ?_, ?_, ?_, ?_, ?_, ?_, ?_, ?_, ?_, ?_, ?_, ?_, ?_, ?_, ?_,
    ?_, ?_, ?_, ?_, ?_, ?_, ?_, ?_, ?_, ?_, ?_, ?_, ?_, ?_, ?_, ?_, ?_, ?_, ?_, ?_,
    by rintro r ⟨⟩⟩
  all_goals intro csrno value read
  case refine_37 =>
    simp only [readPmpcfg] at read
    split at read <;> cases read
  all_goals first
    | cases read; done
    | (intro write; cases write)

/-- So do those of any CSR that is registered. -/
theorem csrOps_guarded {csrno : BitVec 12} {ops : CsrOps} (registered : csrOps csrno = some ops) :
    ops.Guarded :=
  csrOps_of_table (p := fun _ ops => ops.Guarded)
    (fun r row csrno _ _ => csrTable_guarded r row csrno) registered

/-- A dirty unit is on. -/
@[simp] theorem dirtyFs_fpEnabled (s : ArchState) : s.dirtyFs.fpEnabled = true := by
  have kept : (s.get .mstatus ||| mstatusFS) &&& mstatusFS = mstatusFS := by
    apply BitVec.eq_of_getLsbD_eq
    intro i _
    simp only [BitVec.getLsbD_and, BitVec.getLsbD_or]
    cases (s.get .mstatus).getLsbD i <;> cases mstatusFS.getLsbD i <;> rfl
  rw [ArchState.fpEnabled, dirtyFs_mstatus, kept]
  rfl

/-- The read half of an access. -/
theorem csrRead_uniform (ops : CsrOps) (a : RiscvArch δ) (p : Patch) (word : BitVec 32)
    (size : Byte) :
    Uniform (Holds word size) (fun i => csrRead ops ⟨a, p.apply i⟩)
      (Patched fun old a' p' =>
        (ops.readRaises a.state = true ∧ old = none ∧ a' = a ∧ p' = p.raise excII) ∨
          (ops.readRaises a.state = false ∧ old.isSome = true ∧ p' = p ∧
            (a' = a ∨ (∃ value, ops.read = some (.fp value)) ∧ a.state.fpEnabled = true ∧
              a' = { a with state := a.state.dirtyFs }))) := by
  unfold csrRead
  cases read : ops.read with
  | none => exact uniform_error _ _ _
  | some r =>
      cases r with
      | plain value =>
          refine uniform_ok _ _ ⟨some (value a.state a.tick a.instret), a, p, rfl,
            .inr ⟨?_, rfl, rfl, .inl rfl⟩⟩
          simp [CsrOps.readRaises, read]
      | fp value =>
          cases on : a.state.fpEnabled with
          | false =>
              simp only [on, Bool.not_false, if_true]
              refine uniform_ok _ _ ⟨none, a, p.raise excII, rfl, .inl ⟨?_, rfl, rfl, rfl⟩⟩
              simp [CsrOps.readRaises, read, on]
          | true =>
              simp only [on, Bool.not_true, Bool.false_eq_true, if_false]
              refine uniform_ok _ _ ⟨some (value a.state.dirtyFs),
                { a with state := a.state.dirtyFs }, p, rfl,
                .inr ⟨?_, rfl, rfl, .inr ⟨⟨value, rfl⟩, trivial, rfl⟩⟩⟩
              simp [CsrOps.readRaises, read, on]
      | illegal =>
          refine uniform_ok _ _ ⟨none, a, p.raise excII, rfl, .inl ⟨?_, rfl, rfl, rfl⟩⟩
          simp [CsrOps.readRaises, read]

/-- `riscv_csrrw_check` passes what is registered, except writes to read-only numbers. -/
theorem riscvCsrrwCheck_eq_some (csrno : BitVec 12) (write : Bool) (ops : CsrOps) :
    riscvCsrrwCheck csrno write = some ops ↔
      csrOps csrno = some ops ∧ ¬ (write = true ∧ csrno >>> 10 = 3) := by
  unfold riscvCsrrwCheck
  cases csrOps csrno with
  | none => simp
  | some ops' =>
      dsimp only
      split
      · rename_i refused
        simp only [Bool.and_eq_true, beq_iff_eq] at refused
        exact iff_of_false (by simp) fun h => h.2 refused
      · rename_i passed
        simp only [Bool.and_eq_true, beq_iff_eq] at passed
        exact (and_iff_left passed).symm

/-- What a CSR access that raises nothing does to a patch: it aims the second
destination, or the second and the third. -/
inductive CsrAims (p : Patch) : Patch → Prop
  | none : CsrAims p p
  | one (d : Dst) : CsrAims p (p.setDst1 d)
  | two (d d' : Dst) : CsrAims p ((p.setDst1 d).setDst2 d')

/-- The write half of an access. -/
theorem csrWrite_uniform (ops : CsrOps) (val : Word) (a : RiscvArch δ) (p : Patch)
    (word : BitVec 32) (size : Byte) :
    Uniform (Holds word size) (fun i => csrWrite ops val ⟨a, p.apply i⟩)
      (PatchedCtx fun a' p' =>
        (ops.writeRaises a.state = true ∧ a' = a ∧ p' = p.raise excII) ∨
          (ops.writeRaises a.state = false ∧ CsrAims p p')) := by
  unfold csrWrite
  cases write : ops.write with
  | none => exact uniform_error _ _ _
  | some r =>
      cases r with
      | masked w mask =>
          exact uniform_ok _ _ ⟨a, p.setDst1 ⟨w.idx, mask, val⟩, rfl,
            .inr ⟨by simp [CsrOps.writeRaises, write], .one _⟩⟩
      | fp field mask dest =>
          cases on : a.state.fpEnabled with
          | false =>
              simp only [on, Bool.not_false, if_true]
              exact uniform_ok _ _ ⟨a, p.raise excII, rfl,
                .inl ⟨by simp [CsrOps.writeRaises, write, on], rfl, rfl⟩⟩
          | true =>
              simp only [on, Bool.not_true, Bool.false_eq_true, if_false]
              exact uniform_ok _ _ ⟨{ a with state := a.state.dirtyFs },
                (p.setDst1 ⟨field.idx, mask, dest val⟩).setDst2
                  ⟨StateWord.mstatus.idx, mstatusFS, mstatusFS⟩, rfl,
                .inr ⟨by simp [CsrOps.writeRaises, write, on], .two _ _⟩⟩
      | satp =>
          dsimp only
          split
          · exact uniform_ok _ _
              ⟨a, p.setDst1 ⟨StateWord.satp.idx, 0x800fffffffffffff, val⟩, rfl,
                .inr ⟨by simp [CsrOps.writeRaises, write], .one _⟩⟩
          · exact uniform_ok _ _ ⟨a, p, rfl,
              .inr ⟨by simp [CsrOps.writeRaises, write], .none⟩⟩
      | illegal =>
          exact uniform_ok _ _ ⟨a, p.raise excII, rfl,
            .inl ⟨by simp [CsrOps.writeRaises, write], rfl, rfl⟩⟩
      | noop =>
          exact uniform_ok _ _ ⟨a, p, rfl, .inr ⟨by simp [CsrOps.writeRaises, write], .none⟩⟩
      | assertFail => exact uniform_error _ _ _

/-- Making the unit dirty does not change whether a write raises, if the unit is on. -/
theorem writeRaises_dirtyFs (ops : CsrOps) {s : ArchState} (on : s.fpEnabled = true) :
    ops.writeRaises s.dirtyFs = ops.writeRaises s := by
  unfold CsrOps.writeRaises
  split
  · rw [dirtyFs_fpEnabled, on]
  · rfl
  · rfl

/-- An access to a CSR leaves the same patch on any record. -/
theorem riscvCsrrw_uniform (P : Platform δ) {ops : CsrOps} (guarded : ops.Guarded)
    (newValue mask : Word) (a : RiscvArch δ) (p : Patch) (word : BitVec 32) (size : Byte) :
    Uniform (Holds word size) (fun i => riscvCsrrw P ops newValue mask ⟨a, p.apply i⟩)
      (Patched fun _ a' p' =>
        (ops.raises mask a.state = true ∧ a' = a ∧ p' = p.raise excII) ∨
          (ops.raises mask a.state = false ∧ CsrAims p p')) := by
  unfold riscvCsrrw
  cases op : ops.op with
  | some op' =>
      exact uniform_ok _ _ ⟨a.state.get op'.word, a,
        p.setDst1 ⟨op'.word.idx, op'.mask a.state &&& mask, newValue⟩, rfl,
        .inr ⟨by simp [CsrOps.raises, op], .one _⟩⟩
  | none =>
      refine uniform_bind (csrRead_uniform ops a p word size) ?_
      rintro g ⟨old, a', p', rfl, ⟨raised, rfl, rfl, rfl⟩ | ⟨silent, present, rfl, moved⟩⟩
      · exact uniform_ok _ _ ⟨P.junk, a', p.raise excII, rfl,
          .inl ⟨by simp [CsrOps.raises, op, raised], rfl, rfl⟩⟩
      · obtain ⟨old, rfl⟩ := Option.isSome_iff_exists.1 present
        dsimp only
        by_cases readOnly : mask = 0
        · simp only [if_pos readOnly]
          exact uniform_ok _ _ ⟨old, a', p', rfl,
            .inr ⟨by simp [CsrOps.raises, op, silent, readOnly], .none⟩⟩
        · simp only [if_neg readOnly]
          -- The state the write callback sees has the unit on exactly when the first one had.
          have same : ops.writeRaises a'.state = ops.writeRaises a.state := by
            rcases moved with rfl | ⟨-, on, rfl⟩
            · rfl
            · exact writeRaises_dirtyFs ops on
          have raises : ops.raises mask a.state = ops.writeRaises a.state := by
            have live : (mask != 0#64) = true := by simpa using readOnly
            simp only [CsrOps.raises, op, silent, Bool.false_or, live, Bool.true_and]
          refine uniform_bind (csrWrite_uniform ops _ a' p' word size) ?_
          rintro g ⟨a'', p'', rfl, ⟨raised, rfl, rfl⟩ | ⟨quiet, aims⟩⟩
          · refine uniform_ok _ _ ⟨old, a'', p'.raise excII, rfl, .inl ⟨?_, ?_, rfl⟩⟩
            · rw [raises, ← same, raised]
            · rcases moved with rfl | ⟨⟨value, read⟩, on, rfl⟩
              · rfl
              · -- With the unit on only a refused write raises, and the table has none here.
                exfalso
                unfold CsrOps.writeRaises at raised
                split at raised
                · simp at raised
                · rename_i write
                  exact guarded value read write
                · cases raised
          · refine uniform_ok _ _ ⟨old, a'', p'', rfl, .inr ⟨?_, aims⟩⟩
            rw [raises, ← same, quiet]

/-! ### What a patch overwrites -/

/-- The body raises `EXC_II` in a state. -/
def Body.Illegal (s : ArchState) : Body → Prop
  | .csr _ csrno access => ∀ ops, riscvCsrrwCheck csrno access.isWrite = some ops →
      ops.raises (access.mask s) s = true
  | .fload _ _ _ _ | .fp _ _ _ _ => s.fpEnabled = false
  | .sret => s.get .priv < modeS
  | .mret => s.get .priv < modeM
  | _ => False

/-- The body assigns `type`. -/
def Body.SetsType (s : ArchState) : Body → Prop
  | .unsupported => False
  | .jalr rd rs1 _ => (jalrType rd rs1).isSome = true
  | .fload _ _ _ _ | .fp _ _ _ _ => s.fpEnabled = true
  | _ => True

/-- The body faults and leaves `exc_data` as it was. -/
def Body.SilentFault (P : Platform δ) (a : RiscvArch δ) : Body → Prop
  | .csr _ csrno access => ∃ ops, riscvCsrrwCheck csrno access.isWrite = some ops ∧
      ops.raises (access.mask a.state) a.state = true
  | .fload _ addr width _ => a.state.fpEnabled = false ∨
      AccessFaults P width { a with state := a.state.dirtyFs } (addr a.state.dirtyFs) .lfetch
  | .fstore addr width _ => AccessFaults P width a (addr a.state) .sfetch
  | .fp _ _ _ _ => a.state.fpEnabled = false
  | _ => False

/-- The fields that the commit of a type reads have values. -/
def CommitSettled (p : Patch) : InstType → Prop
  | .amo | .store => p.data1.isSome = true ∧ p.idx2.isSome = true ∧ p.data2.isSome = true
  | .sc => ∃ d, p.dst0 = some d ∧
      (d.data = 0#64 → p.excData.isSome = true ∧ p.idx2.isSome = true ∧ p.data2.isSome = true)
  | .direct | .push | .indirect | .indCall | .indPush | .pop | .popPush =>
      p.data2.isSome = true
  | .cond => p.data1.isSome = true ∧ p.data2.isSome = true
  | _ => True

/-- Which fields the patch of a body has, and what it raises. -/
structure PatchSpec (P : Platform δ) (b : Body) (word : BitVec 32) (a a' : RiscvArch δ)
    (p : Patch) : Prop where
  type : p.type.isSome = true ↔ b.SetsType a.state
  aim1 : p.mask1.isSome = true → p.idx1.isSome = true ∧ p.data1.isSome = true
  aim2 : p.mask2.isSome = true → p.idx2.isSome = true ∧ p.data2.isSome = true
  settled : p.exception.getD excNone = excNone → ∀ type, p.type = some type →
    CommitSettled p type
  silent : (∃ code ∈ faultCodes, p.exception = some code ∧ p.excData = none) ↔ b.SilentFault P a
  illegal : a.state.get .priv < 4 → (p.exception = some excII ↔ b.Illegal a.state)
  still : b.Illegal a.state → a' = a
  inst : b.Illegal a.state → p.excData = none ∨ p.excData = some (word.setWidth 64)

/-- The result of a body on all records that hold a word and its size. -/
abbrev BodyPatch (P : Platform δ) (b : Body) (word : BitVec 32) (a : RiscvArch δ) :
    (DecodeInfo → Bool × Ctx δ) → Prop :=
  Patched fun _ a' p => PatchSpec P b word a a' p

/-! ### The bodies -/

section Bodies

variable (P : Platform δ) (a : RiscvArch δ) (word : BitVec 32) (size : Byte)

/-- The faults of a load are among those of an access. -/
theorem ldFault_mem {code : Word} (h : code ∈ [excLAM, excLPF]) :
    code ∈ [excLAM, excLPF, excSAM, excSPF] := List.mem_append_left [excSAM, excSPF] h

/-- The faults of a store are among those of an access. -/
theorem stFault_mem {code : Word} (h : code ∈ [excSAM, excSPF]) :
    code ∈ [excLAM, excLPF, excSAM, excSPF] := List.mem_append_right [excLAM, excLPF] h

/-- A body that assigns plain fields and a type, and raises nothing. -/
theorem patchSpec_plain {b : Body} {a' : RiscvArch δ} {p : Patch} {type : InstType}
    (typed : p.type = some type) (code : p.exception = none) (settled : CommitSettled p type)
    (aim1 : p.mask1.isSome = true → p.idx1.isSome = true ∧ p.data1.isSome = true)
    (aim2 : p.mask2.isSome = true → p.idx2.isSome = true ∧ p.data2.isSome = true)
    (sets : b.SetsType a.state) (legal : ¬ b.Illegal a.state)
    (loud : ¬ b.SilentFault P a) : PatchSpec P b word a a' p where
  type := iff_of_true (by rw [typed]; rfl) sets
  aim1 := aim1
  aim2 := aim2
  settled _ t h := by
    rw [typed] at h
    cases h
    exact settled
  silent := iff_of_false (by rintro ⟨c, -, h, -⟩; rw [code] at h; cases h) loud
  illegal _ := iff_of_false (by rw [code]; simp) legal
  still h := absurd h legal
  inst h := absurd h legal
/-- A body that may raise an access fault and left `EXC_NONE` raised nothing. -/
theorem none_of_fault {p : Patch}
    (code : p.exception = none ∨ ∃ c ∈ [excLAM, excLPF, excSAM, excSPF], p.exception = some c)
    (clear : p.exception.getD excNone = excNone) : p.exception = none := by
  rcases code with h | ⟨c, listed, h⟩
  · exact h
  · rw [h, Option.getD_some] at clear
    rw [clear] at listed
    exact absurd listed (by decide)

/-- A memory body with `exc_data` assigned: it may raise a fault, and then nothing of
its destinations is read. -/
theorem patchSpec_memory {b : Body} {a' : RiscvArch δ} {p : Patch} {type : InstType}
    (typed : p.type = some type)
    (code : p.exception = none ∨ ∃ c ∈ [excLAM, excLPF, excSAM, excSPF], p.exception = some c)
    (excData : p.excData.isSome = true)
    (settled : p.exception = none → CommitSettled p type)
    (aim1 : p.mask1.isSome = true → p.idx1.isSome = true ∧ p.data1.isSome = true)
    (aim2 : p.mask2.isSome = true → p.idx2.isSome = true ∧ p.data2.isSome = true)
    (sets : b.SetsType a.state) (legal : ¬ b.Illegal a.state)
    (loud : ¬ b.SilentFault P a) : PatchSpec P b word a a' p where
  type := iff_of_true (by rw [typed]; rfl) sets
  aim1 := aim1
  aim2 := aim2
  settled clear t h := by
    rw [typed] at h
    cases h
    exact settled (none_of_fault code clear)
  silent := by
    refine iff_of_false ?_ loud
    rintro ⟨c, -, -, h⟩
    rw [h] at excData
    cases excData
  illegal _ := by
    refine iff_of_false ?_ legal
    rcases code with h | ⟨c, listed, h⟩
    · rw [h]; simp
    · rw [h]
      simp only [List.mem_cons, List.not_mem_nil, or_false] at listed
      rcases listed with rfl | rfl | rfl | rfl <;> decide
  still h := absurd h legal
  inst h := absurd h legal

/-- A load. -/
theorem load_uniform (rd : BitVec 5) (addr : ArchState → Word) (width : Width)
    (ext : Word → Word) :
    Uniform (Holds word size) (fun i => (Body.load rd addr width ext).exec P ⟨a, i⟩)
      (BodyPatch P (.load rd addr width ext) word a) := by
  refine uniform_bind
    (ld_uniform P width a (Patch.empty.setExcData (addr a.state)) (addr a.state) word size) ?_
  rintro g ⟨data, a', p, rfl, outcome⟩
  refine uniform_ok _ _
    ⟨true, a', (p.setDst0 (.gpr rd) (ext data)).setType .load, rfl, ?_⟩
  rcases outcome with ⟨-, code, fault, rfl⟩ | ⟨-, rfl⟩
  · exact patchSpec_memory P a word rfl (.inr ⟨code, ldFault_mem fault, rfl⟩) rfl (fun _ => trivial)
      (by intro h; cases h) (by intro h; cases h) trivial id id
  · exact patchSpec_memory P a word rfl (.inl rfl) rfl (fun _ => trivial)
      (by intro h; cases h) (by intro h; cases h) trivial id id

/-- A load-reserved. -/
theorem lr_uniform (rd : BitVec 5) (addr : ArchState → Word) (width : Width) :
    Uniform (Holds word size) (fun i => (Body.lr rd addr width).exec P ⟨a, i⟩)
      (BodyPatch P (.lr rd addr width) word a) := by
  refine uniform_bind
    (ld_uniform P width a (Patch.empty.setExcData (addr a.state)) (addr a.state) word size) ?_
  rintro g ⟨data, a', p, rfl, outcome⟩
  refine uniform_ok _ _
    ⟨true, a', (((p.setDst0 (.gpr rd) data).setDst1 (Dst.full .loadVal data)).setDst2
      (Dst.full .loadRes (addr a.state))).setType .lr, rfl, ?_⟩
  rcases outcome with ⟨-, code, fault, rfl⟩ | ⟨-, rfl⟩
  · exact patchSpec_memory P a word rfl (.inr ⟨code, ldFault_mem fault, rfl⟩) rfl (fun _ => trivial)
      (fun _ => ⟨rfl, rfl⟩) (fun _ => ⟨rfl, rfl⟩) trivial id id
  · exact patchSpec_memory P a word rfl (.inl rfl) rfl (fun _ => trivial)
      (fun _ => ⟨rfl, rfl⟩) (fun _ => ⟨rfl, rfl⟩) trivial id id

/-- A store. -/
theorem store_uniform (addr : ArchState → Word) (width : Width) (data : ArchState → Word) :
    Uniform (Holds word size) (fun i => (Body.store addr width data).exec P ⟨a, i⟩)
      (BodyPatch P (.store addr width data) word a) := by
  refine uniform_bind
    (st_uniform P width a (Patch.empty.setExcData (addr a.state)) (addr a.state) word size) ?_
  rintro g ⟨a', p, rfl, outcome⟩
  refine uniform_ok _ _
    ⟨true, a', (p.setData1 (width.truncate (data a.state))).setType .store, rfl, ?_⟩
  rcases outcome with ⟨-, code, fault, rfl⟩ | ⟨-, ha, rfl⟩
  · exact patchSpec_memory P a word rfl (.inr ⟨code, stFault_mem fault, rfl⟩) rfl
      (by intro h; cases h) (by intro h; cases h) (by intro h; cases h) trivial id id
  · exact patchSpec_memory P a word rfl (.inl rfl) rfl (fun _ => ⟨rfl, rfl, rfl⟩)
      (by intro h; cases h) (by intro h; cases h) trivial id id

/-- An atomic operation: a load, and then the check of a store. -/
theorem amo_uniform (rd : BitVec 5) (addr : ArchState → Word) (width : Width)
    (data : ArchState → Word) (op : Word → Word → Word) :
    Uniform (Holds word size) (fun i => (Body.amo rd addr width data op).exec P ⟨a, i⟩)
      (BodyPatch P (.amo rd addr width data op) word a) := by
  refine uniform_bind
    (ld_uniform P width a (Patch.empty.setExcData (addr a.state)) (addr a.state) word size) ?_
  rintro g ⟨dest, a', p, rfl, loaded⟩
  refine uniform_bind (st_uniform P width a' p (addr a.state) word size) ?_
  rintro g ⟨a'', p', rfl, stored⟩
  refine uniform_ok _ _
    ⟨true, a'', ((p'.setData1 (width.truncate (op dest (data a.state)))).setDst0
      (.gpr rd) dest).setType .amo, rfl, ?_⟩
  rcases loaded with ⟨-, code, fault, rfl⟩ | ⟨-, rfl⟩ <;>
    rcases stored with ⟨-, code', fault', rfl⟩ | ⟨-, ha, rfl⟩
  · exact patchSpec_memory P a word rfl (.inr ⟨code', stFault_mem fault', rfl⟩) rfl
      (by intro h; cases h) (by intro h; cases h) (by intro h; cases h) trivial id id
  · exact patchSpec_memory P a word rfl (.inr ⟨code, ldFault_mem fault, rfl⟩) rfl
      (by intro h; cases h) (by intro h; cases h) (by intro h; cases h) trivial id id
  · exact patchSpec_memory P a word rfl (.inr ⟨code', stFault_mem fault', rfl⟩) rfl
      (by intro h; cases h) (by intro h; cases h) (by intro h; cases h) trivial id id
  · exact patchSpec_memory P a word rfl (.inl rfl) rfl (fun _ => ⟨rfl, rfl, rfl⟩)
      (by intro h; cases h) (by intro h; cases h) trivial id id

/-- The comparison of a store-conditional, which may load. -/
theorem scFails_uniform (width : Width) (p : Patch) (va : Word) :
    Uniform (Holds word size) (fun i => scFails P width ⟨a, p.apply i⟩ va)
      (Patched fun _ _ p' => p' = p ∨ (∃ code ∈ [excLAM, excLPF], p' = p.raise code) ∨
        p' = p.setWidth2 width.bytes) := by
  unfold scFails
  by_cases reserved : va ≠ a.state.get .loadRes
  · simp only [if_pos reserved]
    exact uniform_ok _ _ ⟨true, a, p, rfl, .inl rfl⟩
  · simp only [if_neg reserved]
    refine uniform_bind (ld_uniform P width a p va word size) ?_
    rintro g ⟨data, a', p', rfl, outcome⟩
    refine uniform_ok _ _ ⟨data != a'.state.get .loadVal, a', p', rfl, ?_⟩
    rcases outcome with ⟨-, fault⟩ | ⟨-, rfl⟩
    · exact .inr (.inl fault)
    · exact .inr (.inr rfl)

/-- A failed `sc` writes 1; one that succeeds prepares its store, or faults. -/
theorem scResult_uniform (rd : BitVec 5) (width : Width) (fail : Bool) (va src : Word)
    (p : Patch) :
    Uniform (Holds word size) (fun i => scResult P rd width fail va src ⟨a, p.apply i⟩)
      (PatchedCtx fun _ p' => p' = p.setDst0 (.gpr rd) 1 ∨
        (∃ code ∈ [excSAM, excSPF],
          p' = ((p.raise code).setDst0 (.gpr rd) 0).setData2 src) ∨
        ∃ ha, p' = ((((p.setWidth2 width.bytes).setData2 ha).setDst0 (.gpr rd) 0).setData2
          src)) := by
  unfold scResult
  cases fail with
  | true => exact uniform_ok _ _ ⟨a, p.setDst0 (.gpr rd) 1, rfl, .inl rfl⟩
  | false =>
      simp only [Bool.false_eq_true, if_false]
      refine uniform_bind (st_uniform P width a p va word size) ?_
      rintro g ⟨a', p', rfl, outcome⟩
      refine uniform_ok _ _ ⟨a', (p'.setDst0 (.gpr rd) 0).setData2 src, rfl, ?_⟩
      rcases outcome with ⟨-, code, fault, rfl⟩ | ⟨-, ha, rfl⟩
      · exact .inr (.inl ⟨code, fault, rfl⟩)
      · exact .inr (.inr ⟨ha, rfl⟩)

/-- A store-conditional, with the reservation and without. -/
theorem sc_uniform (rd : BitVec 5) (addr : ArchState → Word) (width : Width)
    (src : ArchState → Word) :
    Uniform (Holds word size) (fun i => (Body.sc rd addr width src).exec P ⟨a, i⟩)
      (BodyPatch P (.sc rd addr width src) word a) := by
  refine uniform_bind
    (scFails_uniform P a word size width (Patch.empty.setExcData (addr a.state))
      (addr a.state)) ?_
  rintro g ⟨fail, a', p, rfl, compared⟩
  refine uniform_bind
    (scResult_uniform P a' word size rd width fail (addr a.state) (src a.state) p) ?_
  rintro g ⟨a'', p', rfl, finished⟩
  refine uniform_ok _ _
    ⟨true, a'', (p'.setDst1 (Dst.full .loadRes fullMask)).setType .sc, rfl, ?_⟩
  -- The comparison left no fault, or one that the rest keeps unless it faults too.
  have before : p.excData.isSome = true ∧ p.mask2 = none ∧
      (p.exception = none ∨
        ∃ c ∈ [excLAM, excLPF, excSAM, excSPF], p.exception = some c) := by
    rcases compared with rfl | ⟨code, fault, rfl⟩ | rfl
    · exact ⟨rfl, rfl, .inl rfl⟩
    · exact ⟨rfl, rfl, .inr ⟨code, ldFault_mem fault, rfl⟩⟩
    · exact ⟨rfl, rfl, .inl rfl⟩
  obtain ⟨data, noMask, code⟩ := before
  have aim2 (q : Patch) (same : q.mask2 = p.mask2) :
      q.mask2.isSome = true → q.idx2.isSome = true ∧ q.data2.isSome = true := by
    intro h
    rw [same, noMask] at h
    cases h
  rcases finished with rfl | ⟨c, fault, rfl⟩ | ⟨ha, rfl⟩
  · refine patchSpec_memory P a word rfl code data (fun _ => ?_) (fun _ => ⟨rfl, rfl⟩)
      (aim2 _ rfl) trivial id id
    refine ⟨_, rfl, ?_⟩
    intro h
    cases h
  · exact patchSpec_memory P a word rfl (.inr ⟨c, stFault_mem fault, rfl⟩) data
      (by intro h; cases h) (fun _ => ⟨rfl, rfl⟩) (aim2 _ rfl) trivial id id
  · exact patchSpec_memory P a word rfl code data
      (fun _ => ⟨_, rfl, fun _ => ⟨data, rfl, rfl⟩⟩) (fun _ => ⟨rfl, rfl⟩) (aim2 _ rfl)
      trivial id id

/-- A body that raises `EXC_II` in place, with `exc_data` left or set to the word. -/
theorem patchSpec_illegal {b : Body} {p : Patch} (code : p.exception = some excII)
    (raises : b.Illegal a.state) (typed : p.type.isSome = true ↔ b.SetsType a.state)
    (aim1 : p.mask1 = none) (aim2 : p.mask2 = none)
    (data : (p.excData = none ∧ b.SilentFault P a) ∨
      (p.excData = some (word.setWidth 64) ∧ ¬ b.SilentFault P a)) :
    PatchSpec P b word a a p where
  type := typed
  aim1 h := by rw [aim1] at h; cases h
  aim2 h := by rw [aim2] at h; cases h
  settled h := by rw [code] at h; exact absurd h (by decide)
  silent := by
    rcases data with ⟨h, silent⟩ | ⟨h, loud⟩
    · exact iff_of_true ⟨excII, by decide, code, h⟩ silent
    · exact iff_of_false (by rintro ⟨c, -, -, h'⟩; rw [h] at h'; cases h') loud
  illegal _ := iff_of_true code raises
  still _ := rfl
  inst _ := by
    rcases data with ⟨h, -⟩ | ⟨h, -⟩
    · exact .inl h
    · exact .inr h
/-- A body that finds the unit off leaves `EXC_II` and nothing else. -/
theorem patchSpec_unitOff {b : Body} (raises : b.Illegal a.state)
    (typeless : ¬ b.SetsType a.state) (silent : b.SilentFault P a) :
    PatchSpec P b word a a (Patch.empty.raise excII) :=
  patchSpec_illegal P a word rfl raises (iff_of_false (by simp [Patch.raise, Patch.empty]) typeless)
    rfl rfl (.inl ⟨rfl, silent⟩)

/-- A floating-point load or store: its fault leaves `exc_data` as it was. -/
theorem patchSpec_floating {b : Body} {a' : RiscvArch δ} {p : Patch} {type : InstType}
    (typed : p.type = some type) (excData : p.excData = none)
    (outcome : (b.SilentFault P a ∧
        ∃ c ∈ [excLAM, excLPF, excSAM, excSPF], p.exception = some c) ∨
      (¬ b.SilentFault P a ∧ p.exception = none ∧ CommitSettled p type))
    (aim1 : p.mask1 = none) (aim2 : p.mask2 = none) (sets : b.SetsType a.state)
    (legal : ¬ b.Illegal a.state) : PatchSpec P b word a a' p where
  type := iff_of_true (by rw [typed]; rfl) sets
  aim1 h := by rw [aim1] at h; cases h
  aim2 h := by rw [aim2] at h; cases h
  settled clear t h := by
    rw [typed] at h
    cases h
    rcases outcome with ⟨-, c, listed, code⟩ | ⟨-, -, settled⟩
    · have none := none_of_fault (.inr ⟨c, listed, code⟩) clear
      rw [none] at code
      cases code
    · exact settled
  silent := by
    rcases outcome with ⟨silent, c, listed, code⟩ | ⟨loud, code, -⟩
    · refine iff_of_true ⟨c, ?_, code, excData⟩ silent
      simp only [List.mem_cons, List.not_mem_nil, or_false] at listed
      rcases listed with rfl | rfl | rfl | rfl <;> decide
    · exact iff_of_false (by rintro ⟨c, -, h, -⟩; rw [code] at h; cases h) loud
  illegal _ := by
    refine iff_of_false ?_ legal
    rcases outcome with ⟨-, c, listed, code⟩ | ⟨-, code, -⟩
    · rw [code]
      simp only [List.mem_cons, List.not_mem_nil, or_false] at listed
      rcases listed with rfl | rfl | rfl | rfl <;> decide
    · rw [code]; simp
  still h := absurd h legal
  inst h := absurd h legal

/-- With the unit off, an instruction of the unit sets its exception, and no type. -/
theorem requireFpu_off {b : Body} {k : Ctx δ → Except Abort (Bool × Ctx δ)}
    (off : a.state.fpEnabled = false) (raises : b.Illegal a.state)
    (typeless : ¬ b.SetsType a.state) (silent : b.SilentFault P a) :
    Uniform (Holds word size) (fun i => requireFpu ⟨a, i⟩ k) (BodyPatch P b word a) := by
  simp only [requireFpu, off, Bool.not_false, if_true]
  exact uniform_ok _ _ ⟨true, a, Patch.empty.raise excII, rfl,
    patchSpec_unitOff P a word raises typeless silent⟩

/-- A floating-point load. -/
theorem fload_uniform (rd : BitVec 5) (addr : ArchState → Word) (width : Width)
    (box : Word → Word) :
    Uniform (Holds word size) (fun i => (Body.fload rd addr width box).exec P ⟨a, i⟩)
      (BodyPatch P (.fload rd addr width box) word a) := by
  simp only [Body.exec]
  cases on : a.state.fpEnabled with
  | false =>
      exact requireFpu_off P a word size on on (by simp [Body.SetsType, on]) (.inl on)
  | true =>
      simp only [requireFpu, on, Bool.not_true, Bool.false_eq_true, if_false]
      refine uniform_bind (ld_uniform P width { a with state := a.state.dirtyFs } Patch.empty
        (addr a.state.dirtyFs) word size) ?_
      rintro g ⟨data, a', p, rfl, outcome⟩
      refine uniform_ok _ _
        ⟨true, a', (p.setDst0 (.fpr rd) (box data)).setType .load, rfl, ?_⟩
      have legal : ¬ (Body.fload rd addr width box).Illegal a.state := by
        simp [Body.Illegal, on]
      rcases outcome with ⟨faults, code, fault, rfl⟩ | ⟨loads, rfl⟩
      · exact patchSpec_floating P a word rfl rfl
          (.inl ⟨.inr faults, code, ldFault_mem fault, rfl⟩) rfl rfl on legal
      · refine patchSpec_floating P a word rfl rfl (.inr ⟨?_, rfl, trivial⟩) rfl rfl on legal
        simp [Body.SilentFault, on, loads]

/-- A floating-point store. -/
theorem fstore_uniform (addr : ArchState → Word) (width : Width) (data : ArchState → Word) :
    Uniform (Holds word size) (fun i => (Body.fstore addr width data).exec P ⟨a, i⟩)
      (BodyPatch P (.fstore addr width data) word a) := by
  refine uniform_bind (st_uniform P width a Patch.empty (addr a.state) word size) ?_
  rintro g ⟨a', p, rfl, outcome⟩
  refine uniform_ok _ _ ⟨true, a', (p.setData1 (data a.state)).setType .store, rfl, ?_⟩
  rcases outcome with ⟨faults, code, fault, rfl⟩ | ⟨stores, ha, rfl⟩
  · exact patchSpec_floating P a word rfl rfl
      (.inl ⟨faults, code, stFault_mem fault, rfl⟩) rfl rfl trivial id
  · exact patchSpec_floating P a word rfl rfl (.inr ⟨stores, rfl, rfl, rfl, rfl⟩) rfl rfl
      trivial id

/-- The commit of a plain type reads no other field of the record. -/
theorem commitSettled_plain (p : Patch) (type : PlainType) :
    CommitSettled p type.instType := by
  cases type <;> exact trivial

/-- An operation of the unit. -/
theorem fp_uniform (dst : DstReg) (rm : Option (BitVec 3)) (c : FpCalc) (type : PlainType) :
    Uniform (Holds word size) (fun i => (Body.fp dst rm c type).exec P ⟨a, i⟩)
      (BodyPatch P (.fp dst rm c type) word a) := by
  simp only [Body.exec]
  cases on : a.state.fpEnabled with
  | false => exact requireFpu_off P a word size on on (by simp [Body.SetsType, on]) on
  | true =>
      simp only [requireFpu, on, Bool.not_true, Bool.false_eq_true, if_false]
      cases ran : c.run P (a.state.dirtyFs.rounded rm) with
      | error e =>
          refine .inl ⟨e, ?_⟩
          intro i _
          simp only [Ctx.setState, ran]
          rfl
      | ok r =>
          refine .inr ⟨_, ⟨true, { a with state := r.2 },
            (Patch.empty.setDst0 dst.word r.1).setType type.instType, rfl, ?_⟩, ?_⟩
          · exact patchSpec_plain P a word rfl rfl (commitSettled_plain _ type)
              (by intro h; cases h) (by intro h; cases h) on (by simp [Body.Illegal, on])
              (by simp [Body.SilentFault, on])
          · intro i _
            simp only [Ctx.setState, ran]
            rfl

/-- A CSR instruction: what the access to the CSR leaves, and the type. -/
theorem csr_uniform (rd : BitVec 5) (csrno : BitVec 12) (access : CsrAccess) :
    Uniform (Holds word size) (fun i => (Body.csr rd csrno access).exec P ⟨a, i⟩)
      (BodyPatch P (.csr rd csrno access) word a) := by
  cases checked : riscvCsrrwCheck csrno access.isWrite with
  | none =>
      -- A refused access stores the word, which the record holds.
      refine .inr ⟨_, ⟨true, a, ((Patch.empty.raise excII).setExcData
        (word.setWidth 64)).setType .csrwr, rfl, ?_⟩, ?_⟩
      · refine patchSpec_illegal P a word rfl ?_ (iff_of_true rfl trivial) rfl rfl
          (.inr ⟨rfl, ?_⟩)
        · intro ops h
          rw [checked] at h
          cases h
        · rintro ⟨ops, h, -⟩
          rw [checked] at h
          cases h
      · intro i holds
        simp only [Body.exec, doCsr, checked, ← holds.1]
        rfl
  | some ops =>
      have registered := ((riscvCsrrwCheck_eq_some _ _ _).1 checked).1
      simp only [Body.exec, doCsr, checked, bind_assoc]
      refine uniform_bind (riscvCsrrw_uniform P (csrOps_guarded registered)
        (access.src a.state) (access.mask a.state) a Patch.empty word size) ?_
      rintro g ⟨dest, a', p, rfl, outcome⟩
      refine uniform_ok _ _ ⟨true, a', (p.setDst0 (.gpr rd) dest).setType .csrwr, rfl, ?_⟩
      rcases outcome with ⟨raised, rfl, rfl⟩ | ⟨quiet, aims⟩
      · refine patchSpec_illegal P a' word rfl ?_ (iff_of_true rfl trivial) rfl rfl
          (.inl ⟨rfl, ops, checked, raised⟩)
        intro ops' h
        rw [checked] at h
        cases h
        exact raised
      · have legal : ¬ (Body.csr rd csrno access).Illegal a.state := by
          intro h
          have := h ops checked
          rw [quiet] at this
          cases this
        have loud : ¬ (Body.csr rd csrno access).SilentFault P a := by
          rintro ⟨ops', h, raised⟩
          rw [checked] at h
          cases h
          rw [quiet] at raised
          cases raised
        -- The write aims at no slot, at the second, or at the second and the third.
        cases aims with
        | none =>
            exact patchSpec_plain P a word rfl rfl trivial (by intro h; cases h)
              (by intro h; cases h) trivial legal loud
        | one d =>
            exact patchSpec_plain P a word rfl rfl trivial (fun _ => ⟨rfl, rfl⟩)
              (by intro h; cases h) trivial legal loud
        | two d d' =>
            exact patchSpec_plain P a word rfl rfl trivial (fun _ => ⟨rfl, rfl⟩)
              (fun _ => ⟨rfl, rfl⟩) trivial legal loud

/-- A body that raises a code of its own: no fault, or one with `exc_data` assigned. -/
theorem patchSpec_code {b : Body} {a' : RiscvArch δ} {p : Patch} {c : Word} {type : InstType}
    (code : p.exception = some c) (plain : a.state.get .priv < 4 → c ≠ excII)
    (named : c ∉ faultCodes ∨ p.excData.isSome = true) (typed : p.type = some type)
    (settled : CommitSettled p type) (aim1 : p.mask1 = none) (aim2 : p.mask2 = none)
    (sets : b.SetsType a.state) (legal : ¬ b.Illegal a.state)
    (loud : ¬ b.SilentFault P a) : PatchSpec P b word a a' p where
  type := iff_of_true (by rw [typed]; rfl) sets
  aim1 h := by rw [aim1] at h; cases h
  aim2 h := by rw [aim2] at h; cases h
  settled _ t h := by
    rw [typed] at h
    cases h
    exact settled
  silent := by
    refine iff_of_false ?_ loud
    rintro ⟨c', fault, h, none⟩
    rw [code] at h
    cases h
    rcases named with plain | given
    · exact plain fault
    · rw [none] at given
      cases given
  illegal small := by
    refine iff_of_false ?_ legal
    rw [code]
    rintro ⟨⟩
    exact plain small rfl
  still h := absurd h legal
  inst h := absurd h legal

/-- `jalr` classifies into types whose commit reads the target only. -/
theorem jalrType_settled {rd rs1 : BitVec 5} {type : InstType} (h : jalrType rd rs1 = some type)
    {p : Patch} (target : p.data2.isSome = true) : CommitSettled p type := by
  have listed : type ∈ [InstType.indPush, .popPush, .indCall, .pop, .indirect] := by
    unfold jalrType at h
    dsimp only at h
    split_ifs at h <;> cases h <;> decide
  simp only [List.mem_cons, List.not_mem_nil, or_false] at listed
  rcases listed with rfl | rfl | rfl | rfl | rfl <;> exact target

/-- A jump to a register. Its type depends on the registers it names. -/
theorem jalr_uniform (rd rs1 : BitVec 5) (imm : Word) :
    Uniform (Holds word size) (fun i => (Body.jalr rd rs1 imm).exec P ⟨a, i⟩)
      (BodyPatch P (.jalr rd rs1 imm) word a) := by
  simp only [Body.exec]
  cases known : jalrType rd rs1 with
  | some type =>
      refine .inr ⟨_, ⟨true, a, ((Patch.empty.setDst0 (.gpr rd)
        (a.pc + size.setWidth 64)).setData2 (a.state.gpr rs1 + imm)).setType type, rfl, ?_⟩, ?_⟩
      · exact patchSpec_plain P a word rfl rfl (jalrType_settled known rfl) (by intro h; cases h)
          (by intro h; cases h) (by simp [Body.SetsType, known]) id id
      · intro i holds
        simp only [← holds.2]
        rfl
  | none =>
      refine .inr ⟨_, ⟨true, a, (Patch.empty.setDst0 (.gpr rd)
        (a.pc + size.setWidth 64)).setData2 (a.state.gpr rs1 + imm), rfl, ?_⟩, ?_⟩
      · refine ⟨?_, ?_, ?_, ?_, ?_, ?_, ?_, ?_⟩ <;>
          simp [Patch.empty, Patch.setDst0, Patch.setData2, Body.SetsType, Body.Illegal,
            Body.SilentFault, known]
      · intro i holds
        simp only [← holds.2]
        rfl

/-- `sret` and `mret` below their privilege. -/
theorem return_illegal {b : Body} (type : InstType) (raises : b.Illegal a.state)
    (sets : b.SetsType a.state) (loud : ¬ b.SilentFault P a) :
    PatchSpec P b word a a (((Patch.empty.raise excII).setExcData
      (word.setWidth 64)).setType type) :=
  patchSpec_illegal P a word rfl raises (iff_of_true rfl sets) rfl rfl (.inr ⟨rfl, loud⟩)

/-- Every body stops for one reason, or applies one patch. -/
theorem exec_uniform (b : Body) :
    Uniform (Holds word size) (fun i => b.exec P ⟨a, i⟩) (BodyPatch P b word a) := by
  cases b with
  | notImplemented => exact uniform_error _ _ _
  | unsupported =>
      refine uniform_ok _ _ ⟨false, a, Patch.empty, rfl, ?_⟩
      refine ⟨?_, ?_, ?_, ?_, ?_, ?_, ?_, ?_⟩ <;>
        simp [Patch.empty, Body.SetsType, Body.Illegal, Body.SilentFault]
  | compute rd value type =>
      simp only [Body.exec]
      cases value a.state a.pc with
      | none => exact uniform_error _ _ _
      | some dest =>
          exact uniform_ok _ _ ⟨true, a, (Patch.empty.setDst0 (.gpr rd) dest).setType
            type.instType, rfl, patchSpec_plain P a word rfl rfl (commitSettled_plain _ type)
            (by intro h; cases h) (by intro h; cases h) trivial id id⟩
  | cond taken imm =>
      exact uniform_ok _ _
        ⟨true, a, ((Patch.empty.setData1 (if taken a.state then 1 else 0)).setData2
          (a.pc + imm)).setType .cond, rfl, patchSpec_plain P a word rfl rfl ⟨rfl, rfl⟩
        (by intro h; cases h) (by intro h; cases h) trivial id id⟩
  | jal rd imm =>
      -- The link address needs the size of the instruction, which the record holds.
      refine .inr ⟨_, ⟨true, a, ((Patch.empty.setDst0 (.gpr rd) (a.pc + size.setWidth 64)).setData2
        (a.pc + imm)).setType (if rd = 0 then .direct else .push), rfl, ?_⟩, ?_⟩
      · refine patchSpec_plain P a word rfl rfl ?_ (by intro h; cases h) (by intro h; cases h)
          trivial id id
        split <;> exact rfl
      · intro i holds
        simp only [Body.exec, ← holds.2]
        rfl
  | jalr rd rs1 imm => exact jalr_uniform P a word size rd rs1 imm
  | load rd addr width ext => exact load_uniform P a word size rd addr width ext
  | store addr width data => exact store_uniform P a word size addr width data
  | fload rd addr width box => exact fload_uniform P a word size rd addr width box
  | fstore addr width data => exact fstore_uniform P a word size addr width data
  | amo rd addr width data op => exact amo_uniform P a word size rd addr width data op
  | lr rd addr width => exact lr_uniform P a word size rd addr width
  | sc rd addr width src => exact sc_uniform P a word size rd addr width src
  | csr rd csrno access => exact csr_uniform P a word size rd csrno access
  | fp dst rm c type => exact fp_uniform P a word size dst rm c type
  | simple type =>
      exact uniform_ok _ _ ⟨true, a, Patch.empty.setType type.instType, rfl,
        patchSpec_plain P a word rfl rfl (commitSettled_plain _ type)
          (by intro h; cases h) (by intro h; cases h) trivial id id⟩
  | sfence src1 src2 =>
      exact uniform_ok _ _ ⟨true, a, ((Patch.empty.setData1 (src1 a.state)).setData2
        (src2 a.state)).setType .sfence, rfl, patchSpec_plain P a word rfl rfl trivial
          (by intro h; cases h) (by intro h; cases h) trivial id id⟩
  | sret =>
      simp only [Body.exec]
      -- Refused below S, the body stores the word, which the record holds.
      by_cases low : a.state.get .priv < modeS
      · simp only [if_pos low]
        refine .inr ⟨_, ⟨true, a, _, rfl, return_illegal P a word .sret low trivial id⟩, ?_⟩
        intro i holds
        simp only [← holds.1]
        rfl
      · simp only [if_neg low]
        exact uniform_ok _ _ ⟨true, a, (Patch.empty.raise excSRET).setType .sret, rfl,
          patchSpec_code P a word rfl (fun _ => by decide) (.inl (by decide)) rfl trivial rfl rfl
            trivial low id⟩
  | mret =>
      simp only [Body.exec]
      by_cases low : a.state.get .priv < modeM
      · simp only [if_pos low]
        refine .inr ⟨_, ⟨true, a, _, rfl, return_illegal P a word .mret low trivial id⟩, ?_⟩
        intro i holds
        simp only [← holds.1]
        rfl
      · simp only [if_neg low]
        exact uniform_ok _ _ ⟨true, a, (Patch.empty.raise excMRET).setType .mret, rfl,
          patchSpec_code P a word rfl (fun _ => by decide) (.inl (by decide)) rfl trivial rfl rfl
            trivial low id⟩
  | ebreak =>
      exact uniform_ok _ _ ⟨true, a, ((Patch.empty.setExcData a.pc).raise excBP).setType .csrwr,
        rfl, patchSpec_code P a word rfl (fun _ => by decide) (.inr rfl) rfl trivial rfl rfl
          trivial id id⟩
  | ecall =>
      refine .inr ⟨_, ⟨true, a, ((Patch.empty.raise (excECU + a.state.get .priv)).setExcData
        (word.setWidth 64)).setType .csrwr, rfl, ?_⟩, ?_⟩
      · refine patchSpec_code P a word rfl (fun small => ?_) (.inr rfl) rfl trivial rfl rfl
          trivial id id
        -- The code of `ecall` depends on the mode; none of the four is `EXC_NONE`.
        rcases eq_of_lt_four small with h | h | h | h <;> rw [h] <;> decide
      · intro i holds
        simp only [Body.exec, ← holds.1]
        rfl

end Bodies

/-- On a single record: the body leaves it patched. -/
theorem exec_patch (P : Platform δ) (b : Body) (ctx : Ctx δ) :
    Returns (b.exec P ctx) fun r =>
      ∃ p, r.2.info = p.apply ctx.info ∧
        PatchSpec P b ctx.info.inst ctx.arch r.2.arch p := by
  intro r ran
  rcases exec_uniform P ctx.arch ctx.info.inst ctx.info.instSize b with
    ⟨e, stops⟩ | ⟨g, ⟨v, a', p, rfl, spec⟩, returns⟩
  · have stopped := (stops ctx.info ⟨rfl, rfl⟩).symm.trans ran
    cases stopped
  · have returned := ran.symm.trans (returns ctx.info ⟨rfl, rfl⟩)
    cases returned
    exact ⟨p, rfl, spec⟩

end CPUDelaySim.Riscv
