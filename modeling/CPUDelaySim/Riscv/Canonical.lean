import CPUDelaySim.Riscv.Sv39

/-!
# Non-canonical addresses

A walk looks at bits 38 to 0 of an address, so an address whose upper bits do not extend
bit 38 is translated like the one whose bits do.
-/

namespace CPUDelaySim.Riscv

variable {δ : Type}

namespace RiscvArch

/-- Bits 63 to 39 equal bit 38. -/
def Canonical (va : Word) : Prop := ∀ i, 39 ≤ i → i < 64 → va.getLsbD i = va.getLsbD 38

/-- The canonical address with the same low 39 bits. -/
def canonical (va : Word) : Word := (va.setWidth 39).signExtend 64

/-- The canonical address has the same low 39 bits. -/
theorem canonical_setWidth (va : Word) : (canonical va).setWidth 39 = va.setWidth 39 := by
  apply BitVec.eq_of_getLsbD_eq
  intro i low
  rw [canonical, BitVec.getLsbD_setWidth, BitVec.getLsbD_signExtend, if_pos low]
  simp [low, show i < 64 by omega]

/-! ### What a walk looks at -/

/-- Two addresses select the same entries if they agree on bits 38 to 12. -/
def SamePage (va vb : Word) : Prop := ∀ i, 12 ≤ i → i < 39 → vb.getLsbD i = va.getLsbD i

variable {P : Platform δ} {va vb : Word}

/-- Such addresses have the same page numbers. -/
theorem SamePage.vpn_eq (same : SamePage va vb) {level : Nat} (small : level ≤ 2) :
    vpn vb level = vpn va level := by
  apply BitVec.eq_of_getLsbD_eq
  intro i low
  rw [vpn, vpn, BitVec.getLsbD_extractLsb', BitVec.getLsbD_extractLsb',
    same (12 + 9 * level + i) (by omega) (by omega)]

/-- So they have the same entries. -/
theorem SamePage.pteSlot_eq (same : SamePage va vb) (ram : Nat → Byte) (table : Word) {level : Nat}
    (small : level ≤ 2) : pteSlot P ram vb table level = pteSlot P ram va table level := by
  simp only [pteSlot, entryAddr, same.vpn_eq small]

/-- So their walks come to the same leaf. -/
theorem SamePage.find_eq (same : SamePage va vb) (ram : Nat → Byte) (table : Word) :
    Slot.find (pteSlot P ram vb) 2 table = Slot.find (pteSlot P ram va) 2 table :=
  Slot.find_congr (fun t _ small => same.pteSlot_eq ram t small) table

/-- So their walks read at the same places. -/
theorem SamePage.pteReads_eq (same : SamePage va vb) (ram : Nat → Byte) (s : ArchState) :
    pteReads P ram s vb = pteReads P ram s va := by
  rw [pteReads, pteReads,
    Slot.visited_congr (fun t _ small => same.pteSlot_eq ram t small)]
  refine List.map_congr_left ?_
  intro t read
  rw [entryAddr, entryAddr, same.vpn_eq (Slot.mem_visited_le read)]

/-- So their entries can be read together. -/
theorem SamePage.ptesMapped_iff (same : SamePage va vb) (a : RiscvArch δ) :
    PtesMapped P a vb ↔ PtesMapped P a va := by
  rw [PtesMapped, PtesMapped, same.pteReads_eq]

/-- The walk does not look at the bits from 39 on. -/
theorem samePage_of_setWidth (low : vb.setWidth 39 = va.setWidth 39) : SamePage va vb := by
  intro i _ bound
  have bit := congrArg (fun v => v.getLsbD i) low
  simpa [bound] using bit

/-- A translation depends on the low 39 bits of the address. -/
theorem sv39_of_setWidth (low : vb.setWidth 39 = va.setWidth 39) (ram : Nat → Byte)
    (s : ArchState) (type : FetchType) : sv39 P ram s vb type = sv39 P ram s va type := by
  have digits : vb.toNat % 2 ^ 39 = va.toNat % 2 ^ 39 := by
    simpa [BitVec.toNat_setWidth] using congrArg BitVec.toNat low
  have target (pte : Pte) {level : Nat} (small : level ≤ 2) :
      pte.target level vb = pte.target level va := by
    have divides : 2 ^ (12 + 9 * level) ∣ 2 ^ 39 := Nat.pow_dvd_pow 2 (by omega)
    rw [Pte.target, Pte.target, ← Nat.mod_mod_of_dvd vb.toNat divides, digits,
      Nat.mod_mod_of_dvd va.toNat divides]
  unfold sv39
  rw [(samePage_of_setWidth low).find_eq]
  cases found : Slot.find (pteSlot P ram va) 2 (satpRoot s) with
  | none => rfl
  | some leaf =>
      obtain ⟨pte, level⟩ := leaf
      dsimp only
      rw [target pte (Slot.find_eq_some_iff.1 found).le]

/-! ### Faults -/

/-- A non-canonical address faults, so no other address that differs from it above bit 38
is translated beside it. -/
structure FaultsNonCanonical (P : Platform δ) (a : RiscvArch δ) (va : Word) (type : FetchType) :
    Prop where
  fault : ¬ Canonical va →
    ∃ paddr b, a.translateAddr P va type excNone = .ok (paddr, type.pageFault, b)
  unique : ¬ Canonical va → ∀ vb pa pb b b', vb.setWidth 39 = va.setWidth 39 →
    a.translateAddr P va type excNone = .ok (pa, excNone, b) →
      a.translateAddr P vb type excNone = .ok (pb, excNone, b') → vb = va

/-- A non-canonical address faults exactly when the walk can read its entries and the canonical
address with the same low bits is not mapped, or not for this access. `translateAddr` takes bits
38 to 0 of the address and looks at no other, so both addresses have one walk. -/
theorem faultsNonCanonical_iff (P : Platform δ) (a : RiscvArch δ) (va : Word) (type : FetchType)
    (on : a.mmuOn type = true) :
    FaultsNonCanonical P a va type ↔
      Canonical va ∨
        (PtesMapped P a va ∧ sv39 P a.memory.ram a.state (canonical va) type = none) := by
  have same : sv39 P a.memory.ram a.state (canonical va) type =
      sv39 P a.memory.ram a.state va type := sv39_of_setWidth (canonical_setWidth va) _ _ _
  rw [same]
  constructor
  · intro faults
    by_cases odd : Canonical va
    · exact .inl odd
    obtain ⟨paddr, b, ran⟩ := faults.fault odd
    exact .inr ⟨ptesMapped_of_ok on ran, sv39_of_fault on ran⟩
  · rintro (even | ⟨mapped, unmapped⟩)
    · exact ⟨fun odd => absurd even odd, fun odd => absurd even odd⟩
    obtain ⟨paddr, b, -, ran⟩ := translateAddr_eq on mapped excNone
    rw [unmapped] at ran
    refine ⟨fun _ => ⟨paddr, b, ran⟩, ?_⟩
    intro _ vb pa pb c c' _ translated _
    have code := congrArg (fun r => r.2.1) (Except.ok.inj (ran.symm.trans translated))
    exact absurd code (pageFault_ne_excNone type)

/-- In the machine that maps the gigapage of RAM, with bit 63 set above it. -/
theorem faultsNonCanonical_iff_gigapage :
    FaultsNonCanonical (ramOnly 4096) gigapage 0x8000000080000000 .lfetch ↔
      Canonical 0x8000000080000000 ∨ (PtesMapped (ramOnly 4096) gigapage 0x8000000080000000 ∧
        sv39 (ramOnly 4096) gigapage.memory.ram gigapage.state (canonical 0x8000000080000000)
          .lfetch = none) :=
  faultsNonCanonical_iff (ramOnly 4096) gigapage 0x8000000080000000 .lfetch (by decide +kernel)

/-- The address with bit 63 set is translated to the gigapage. -/
theorem not_faultsNonCanonical_gigapage :
    ¬ FaultsNonCanonical (ramOnly 4096) gigapage 0x8000000080000000 .lfetch := by
  intro faults
  have odd : ¬ Canonical 0x8000000080000000 := by
    intro even
    have bit := even 63 (by decide) (by decide)
    revert bit
    decide
  obtain ⟨paddr, b, ran⟩ := faults.fault odd
  have code : (gigapage.translateAddr (ramOnly 4096) 0x8000000080000000 .lfetch
      excNone).toOption.map (fun r => r.2.1) = some excNone := by decide +kernel
  rw [ran] at code
  exact absurd (Option.some.inj code) (by decide : excLPF ≠ excNone)

end RiscvArch

end CPUDelaySim.Riscv
