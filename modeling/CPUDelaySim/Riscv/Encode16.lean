import CPUDelaySim.Riscv.Encode

/-!
# Compressed words

A compressed word has its quadrant in the two low bits and `funct3` in the three high ones;
the eleven bits in between are cut up anew by almost every instruction.  `wordC` leaves them
whole, so that a format is a way to write those eleven bits.

The floating-point rows of the table stand behind rows of RV128 instructions that reject
every word.  `settle` finds the first few rows that a pattern passes.
-/

namespace CPUDelaySim.Riscv

/-! ### Words -/

/-- The quadrant, `funct3`, and what is between them. -/
def wordC (funct3 : BitVec 3) (payload : BitVec 11) (quadrant : BitVec 2) : BitVec 32 :=
  (0#16 ++ funct3 ++ payload ++ quadrant :)

/-- Some bits of the payload, `funct3` and the quadrant. -/
def patternC (funct3 : BitVec 3) (mask payload : BitVec 11) (quadrant : BitVec 2)
    (avoid : List (BitVec 32 × BitVec 32)) : Pattern :=
  ⟨wordC (.allOnes 3) mask (.allOnes 2), wordC funct3 payload quadrant, avoid⟩

/-- The mask of a row acts on a compressed word field by field. -/
theorem wordC_and (funct3 funct3' : BitVec 3) (payload payload' : BitVec 11)
    (quadrant quadrant' : BitVec 2) :
    wordC funct3 payload quadrant &&& wordC funct3' payload' quadrant' =
      wordC (funct3 &&& funct3') (payload &&& payload') (quadrant &&& quadrant') := by
  refine BitVec.and_append.trans ?_
  simp only [BitVec.and_append]
  rfl

/-- A compressed word is of the pattern with its `funct3`, its quadrant and what is fixed of its
payload. -/
theorem patternC_holds {funct3 : BitVec 3} {mask payload known : BitVec 11} {quadrant : BitVec 2}
    {avoid : List (BitVec 32 × BitVec 32)} (fixed : payload &&& mask = known)
    (avoided : ∀ q ∈ avoid, wordC funct3 payload quadrant &&& q.1 ≠ q.2) :
    (patternC funct3 mask known quadrant avoid).Holds (wordC funct3 payload quadrant) := by
  refine ⟨?_, avoided⟩
  rw [patternC, wordC_and, fixed, BitVec.and_allOnes, BitVec.and_allOnes]

/-- A pattern of the quadrant and `funct3` alone. -/
theorem patternC_holds_any {funct3 : BitVec 3} {payload : BitVec 11} {quadrant : BitVec 2} :
    (patternC funct3 0 0 quadrant []).Holds (wordC funct3 payload quadrant) :=
  patternC_holds BitVec.and_zero (by simp)

/-! ### Payloads -/

/-- A register of the eight a three-bit field names. -/
def compactReg (r : BitVec 3) : BitVec 5 := r.setWidth 5 + 8

/-- Three bits and two around a short register, and a second one. -/
def payloadL (high base : BitVec 3) (low : BitVec 2) (r : BitVec 3) : BitVec 11 :=
  (high ++ base ++ low ++ r :)

/-- One bit and five around a register. -/
def payloadI (high : BitVec 1) (r low : BitVec 5) : BitVec 11 := (high ++ r ++ low :)

/-- Six bits and a register. -/
def payloadSS (imm : BitVec 6) (r : BitVec 5) : BitVec 11 := (imm ++ r :)

section Fields

variable (funct3 : BitVec 3) (quadrant : BitVec 2)

/-- A field of the payload. -/
theorem field_wordC (payload : BitVec 11) {pos : Nat} (len : Nat) (inside : pos + len ≤ 11) :
    field (wordC funct3 payload quadrant) (2 + pos) len = payload.extractLsb' pos len := by
  apply BitVec.eq_of_getLsbD_eq
  intro i bound
  rw [BitVec.getLsbD_extractLsb', BitVec.getLsbD_extractLsb', wordC, BitVec.getLsbD_append,
    BitVec.getLsbD_append]
  simp [bound, show ¬ 2 + pos + i < 2 by omega, show 2 + pos + i - 2 = pos + i by omega,
    show pos + i < 11 by omega]

/-- The fields of an access to compact registers. -/
theorem fields_payloadL (high base : BitVec 3) (low : BitVec 2) (r : BitVec 3) :
    let word := wordC funct3 (payloadL high base low r) quadrant
    field word 10 3 = high ∧ field word 7 3 = base ∧ field word 5 2 = low ∧
      field word 2 3 = r := by
  have fields (pos len : Nat) (inside : pos + len ≤ 11) :=
    field_wordC funct3 quadrant (payloadL high base low r) len inside
  dsimp only
  rw [fields 8 3 (by decide), fields 5 3 (by decide), fields 3 2 (by decide),
    fields 0 3 (by decide), payloadL]
  refine ⟨?_, ?_, ?_, extractLsb'_last⟩
  · rw [extractLsb'_above 5 rfl, extractLsb'_above 3 rfl, extractLsb'_above 0 rfl,
      BitVec.extractLsb'_eq_self]
  · rw [extractLsb'_above 2 rfl, extractLsb'_above 0 rfl, extractLsb'_last]
  · rw [extractLsb'_above 0 rfl, extractLsb'_last]

/-- The fields of a word with two full registers. -/
theorem fields_payloadI (high : BitVec 1) (r low : BitVec 5) :
    let word := wordC funct3 (payloadI high r low) quadrant
    field word 12 1 = high ∧ field word 7 5 = r ∧ field word 2 5 = low := by
  have fields (pos len : Nat) (inside : pos + len ≤ 11) :=
    field_wordC funct3 quadrant (payloadI high r low) len inside
  dsimp only
  rw [fields 10 1 (by decide), fields 5 5 (by decide), fields 0 5 (by decide), payloadI]
  refine ⟨?_, ?_, extractLsb'_last⟩
  · rw [extractLsb'_above 5 rfl, extractLsb'_above 0 rfl, BitVec.extractLsb'_eq_self]
  · rw [extractLsb'_above 0 rfl, extractLsb'_last]

/-- The fields of a store to the stack. -/
theorem fields_payloadSS (imm : BitVec 6) (r : BitVec 5) :
    let word := wordC funct3 (payloadSS imm r) quadrant
    field word 7 6 = imm ∧ field word 2 5 = r := by
  have fields (pos len : Nat) (inside : pos + len ≤ 11) :=
    field_wordC funct3 quadrant (payloadSS imm r) len inside
  dsimp only
  rw [fields 5 6 (by decide), fields 0 5 (by decide), payloadSS]
  refine ⟨?_, extractLsb'_last⟩
  rw [extractLsb'_above 0 rfl, BitVec.extractLsb'_eq_self]

end Fields

/-! ### Rows that reject -/

/-- The bodies of the first `n` rows a pattern passes, if it settles every row up to there. -/
def settle (p : Pattern) : Nat → List Row → Option (List (BitVec 32 → Body))
  | 0, _ => some []
  | _ + 1, [] => none
  | n + 1, r :: rows =>
      if r.Fails p then settle p (n + 1) rows
      else if r.Passes p then (settle p n rows).map (r.body :: ·) else none

/-- The rows that a pattern settles are those that are offered first. -/
theorem offered_of_settle {p : Pattern} {word : BitVec 32} (holds : p.Holds word) {n : Nat}
    {rows : List Row} {bodies : List (BitVec 32 → Body)} (settled : settle p n rows = some bodies) :
    ∃ rest, offered rows word = bodies.map (· word) ++ rest := by
  induction rows generalizing n bodies with
  | nil =>
      cases n with
      | zero =>
          cases settled
          exact ⟨_, rfl⟩
      | succ n => cases settled
  | cons r rows ih =>
      cases n with
      | zero =>
          cases settled
          exact ⟨_, rfl⟩
      | succ n =>
          rw [settle] at settled
          split at settled
          · rename_i fails
            obtain ⟨rest, offers⟩ := ih settled
            refine ⟨rest, ?_⟩
            rw [← offers]
            exact List.filterMap_cons_none (if_neg (fails.test holds))
          · split at settled
            · rename_i passes
              obtain ⟨bodies, later, rfl⟩ := Option.map_eq_some_iff.1 settled
              obtain ⟨rest, offers⟩ := ih later
              refine ⟨rest, ?_⟩
              rw [List.map_cons, List.cons_append, ← offers]
              exact List.filterMap_cons_some (if_pos (passes.test holds))
            · cases settled

/-- A compressed word whose first row rejects has the body of the second. -/
theorem selected16_of_settle {p : Pattern} {word : BitVec 32} (holds : p.Holds word)
    {first second : BitVec 32 → Body} (settled : settle p 2 rows16 = some [first, second])
    (rejects : (first word).accepts = false) (accepts : (second word).accepts = true) :
    selected word true = second word := by
  obtain ⟨rest, offers⟩ := offered_of_settle holds settled
  change ((offered rows16 word).find? Body.accepts).getD .unsupported = _
  rw [offers, List.map_cons, List.cons_append, List.find?_cons_of_neg (by rw [rejects]; nofun),
    List.map_cons, List.cons_append, List.find?_cons_of_pos accepts, Option.getD_some]

end CPUDelaySim.Riscv
