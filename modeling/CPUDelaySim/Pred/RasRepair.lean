import CPUDelaySim.Pred.Ras
import Mathlib.Tactic.Common

/-!
# Repairing the return address stack

A prediction saves the pointer it started from, and a redirect starts from it again.  The
pointer then goes round at the length of the instruction, and not at the size of the stack, so
the repair is right where the two do not differ: `RedirectFits` for the pointer, and
`RestoreFits` for the address pushed, too.

`Ras.Reached` is a run of predictions and of redirects to any snapshot taken before; as long as
its redirects fit, the pointer stays inside the stack.

The slots are never cleared, so a wrong path may leave anything above the pointer.  `Restores`
therefore speaks of the pointer and the slot of the branch alone.  Both equivalences are about one
redirect in a state of a run; the run is needed only for the bound on the pointer, without which
the slot would not exist.
-/

namespace CPUDelaySim

namespace Ras

/-- The pointer after a branch, in a stack of `size` slots. -/
def moved (size : Nat) (type : InstType) (top : Nat) : Nat :=
  match type with
  | .push | .indPush => (top + 1) % size
  | .pop => (top + size - 1) % size
  | _ => top

/-- The slot a branch pushes its return address to. -/
def pushSlot (size : Nat) (type : InstType) (top : Nat) : Option Nat :=
  match type with
  | .push | .indPush => some top
  | .popPush => some (below size top)
  | _ => none

/-- A sequence of predictions. -/
def predictAll : List BranchStream → Ras → Option Ras
  | [], s => some s
  | stream :: rest, s => do
      let (_, s, _) ← s.predict stream
      predictAll rest s

/-- From a pointer, the length and the size move it alike. -/
def RedirectFits (size len : Nat) (type : InstType) (top : Nat) : Prop :=
  match type with
  | .push | .indPush => (top + 1) % len = (top + 1) % size
  | .pop => top = 0 → len = size
  | .popPush => top = 0 → len ≤ size
  | _ => True

/-- They push the same address, too. -/
def RestoreFits (size len : Nat) (type : InstType) (top : Nat) : Prop :=
  match type with
  | .push | .indPush | .popPush => len = size
  | .pop => top = 0 → len = size
  | _ => True

/-- A run from `afterLoad`, with the snapshots taken in it; `new uint64_t[size]` leaves the slots
as they are. -/
inductive Reached (size : Nat) : Ras → List RasMeta → Prop
  | afterLoad (ras : Nat → Word) : Reached size ⟨size, ras, 0⟩ []
  | predict {s s' metas stream out metaInfo} (before : Reached size s metas)
      (predicted : s.predict stream = some (out, s', metaInfo)) :
      Reached size s' (metaInfo :: metas)
  | redirect {s s' metas metaInfo pc len type} (before : Reached size s metas)
      (taken : metaInfo ∈ metas) (positive : 0 < len)
      (fits : RedirectFits size len type metaInfo.top)
      (redirected : s.redirect pc len type metaInfo = some s') : Reached size s' metas

/-- After a prediction and any wrong path, the redirect of the branch moves the pointer the
prediction started from by the type the branch turned out to have. -/
def Repairs (s : Ras) (stream : BranchStream) (pc : Word) (len : Nat) (type : InstType) : Prop :=
  ∃ out after metaInfo, s.predict stream = some (out, after, metaInfo) ∧
    ∀ wrong, ∃ squashed repaired, predictAll wrong after = some squashed ∧
      squashed.redirect pc len type metaInfo = some repaired ∧
        repaired.top = moved s.size type s.top

/-- If it was predicted with that type, the redirect leaves the pointer and the address pushed
as the prediction left them. -/
def Restores (s : Ras) (stream : BranchStream) (len : Nat) : Prop :=
  ∃ out after metaInfo, s.predict stream = some (out, after, metaInfo) ∧
    ∀ wrong, ∃ squashed repaired, predictAll wrong after = some squashed ∧
      squashed.redirect stream.pc len stream.type metaInfo = some repaired ∧
        repaired.top = after.top ∧
          ∀ i ∈ pushSlot s.size stream.type s.top, repaired.ras i = after.ras i

/-! ### The pointer -/

/-- The slot below the top is inside the stack. -/
theorem below_lt {size top : Nat} (inside : top < size) : below size top < size := by
  cases top with
  | zero => exact Nat.sub_lt inside Nat.one_pos
  | succ top => exact Nat.lt_of_succ_lt inside

/-- It is the slot before the top, going round. -/
theorem below_eq {size top : Nat} (inside : top < size) :
    below size top = (top + size - 1) % size := by
  cases top with
  | zero =>
      rw [below_zero, Nat.zero_add]
      exact (Nat.mod_eq_of_lt (Nat.sub_lt inside Nat.one_pos)).symm
  | succ top =>
      have whole : top + 1 + size - 1 = top + size := by omega
      rw [below_succ, whole, Nat.add_mod_right, Nat.mod_eq_of_lt (Nat.lt_of_succ_lt inside)]

/-- A branch leaves the top inside the stack. -/
theorem moved_lt {size top : Nat} (type : InstType) (inside : top < size) :
    moved size type top < size := by
  have positive : 0 < size := Nat.zero_lt_of_lt inside
  cases type with
  | push | indPush | pop => exact Nat.mod_lt _ positive
  | _ => exact inside

/-- A pop goes to the slot below. -/
theorem moved_pop {size top : Nat} (inside : top < size) :
    moved size .pop top = below size top :=
  (below_eq inside).symm

/-- A prediction inside the stack: the pointer it saves, the one it leaves, and the slots. -/
theorem predict_spec {s : Ras} (inside : s.top < s.size) (stream : BranchStream) :
    ∃ out after, s.predict stream = some (out, after, ⟨s.top⟩) ∧ after.size = s.size ∧
      after.top = moved s.size stream.type s.top ∧
        ∀ i ∈ pushSlot s.size stream.type s.top,
          after.ras i = stream.pc + BitVec.ofNat 64 s.size := by
  have slot := below_lt inside
  obtain ⟨⟨guess⟩, type, rasv, pc, target⟩ := stream
  cases type with
  | push | indPush => simp [predict, write, moved, pushSlot, inside]
  | popPush => simp [predict, read, write, moved, pushSlot, slot]
  | pop => simp [predict, read, moved_pop inside, pushSlot, slot]
  | _ => simp [predict, moved, pushSlot]

/-- Branches that are predicted, on a wrong path or not, keep the size of the stack. -/
theorem predictAll_spec (wrong : List BranchStream) {s : Ras} (inside : s.top < s.size) :
    ∃ squashed, predictAll wrong s = some squashed ∧ squashed.size = s.size := by
  induction wrong generalizing s with
  | nil => exact ⟨s, rfl, rfl⟩
  | cons stream rest ih =>
      obtain ⟨out, after, predicted, size, top, -⟩ := predict_spec inside stream
      have inside' : after.top < after.size := by
        rw [top, size]
        exact moved_lt _ inside
      obtain ⟨squashed, followed, size'⟩ := ih inside'
      exact ⟨squashed, by simp [predictAll, predicted, followed], size'.trans size⟩

/-- A redirect moves the saved pointer right exactly if the length fits. -/
theorem redirect_top_iff (s : Ras) (pc : Word) {len top : Nat} (type : InstType)
    (inside : top < s.size) (positive : 0 < len) :
    (∃ repaired, s.redirect pc len type ⟨top⟩ = some repaired ∧
        repaired.top = moved s.size type top) ↔ RedirectFits s.size len type top := by
  cases type with
  | push | indPush => simp [redirect, write, moved, RedirectFits, inside]
  | pop =>
      rw [moved_pop inside]
      cases top with
      | zero =>
          simp only [redirect, RedirectFits, below_zero, Option.some.injEq, exists_eq_left',
            true_imp_iff]
          omega
      | succ top => simp [redirect, RedirectFits]
  | popPush =>
      cases top with
      | zero =>
          -- The write, not the pointer, needs the length: it is outside the array otherwise.
          by_cases slot : len - 1 < s.size
          · simp only [redirect, write, below_zero, slot, if_true, moved, RedirectFits,
              Option.some.injEq, exists_eq_left', true_imp_iff, true_iff]
            omega
          · simp only [redirect, write, below_zero, slot, if_false, reduceCtorEq, false_and,
              exists_false, RedirectFits, true_imp_iff, false_iff]
            omega
      | succ top =>
          have slot : top < s.size := Nat.lt_of_succ_lt inside
          simp [redirect, write, moved, RedirectFits, slot]
  | _ => simp [redirect, moved, RedirectFits]

/-- What a redirect leaves in the slots; its `top - 1` goes round at the length, too. -/
theorem redirect_slots {s repaired : Ras} {pc : Word} {len top : Nat} {type : InstType}
    (redirected : s.redirect pc len type ⟨top⟩ = some repaired) :
    repaired.size = s.size ∧
      (∀ i ∈ pushSlot len type top, repaired.ras i = pc + BitVec.ofNat 64 len) ∧
        ∀ i ∉ pushSlot len type top, repaired.ras i = s.ras i := by
  cases type with
  | push | indPush =>
      simp only [redirect, write, bind, pure, Option.bind_eq_some_iff,
        Option.ite_none_right_eq_some, Option.some.injEq] at redirected
      obtain ⟨_, ⟨-, rfl⟩, rfl⟩ := redirected
      simp +contextual [pushSlot, Function.update_of_ne, eq_comm]
  | popPush =>
      simp only [redirect, write, Option.ite_none_right_eq_some, Option.some.injEq] at redirected
      obtain ⟨-, rfl⟩ := redirected
      simp +contextual [pushSlot, Function.update_of_ne, eq_comm]
  | _ =>
      cases redirected
      simp [pushSlot]

/-! ### Runs -/

/-- As long as the redirects fit, the pointers are inside the stack. -/
theorem Reached.inside {size : Nat} (large : 2 ≤ size) {s : Ras} {metas : List RasMeta}
    (reached : Reached size s metas) :
    s.size = size ∧ s.top < size ∧ ∀ metaInfo ∈ metas, metaInfo.top < size := by
  induction reached with
  | afterLoad ras => exact ⟨rfl, Nat.zero_lt_of_lt large, fun _ taken => nomatch taken⟩
  | @predict s s' metas stream out metaInfo before predicted ih =>
      obtain ⟨rfl, inside, saved⟩ := ih
      obtain ⟨out', after, same, size, top, -⟩ := predict_spec inside stream
      obtain ⟨rfl, rfl, rfl⟩ : out' = out ∧ after = s' ∧ ⟨s.top⟩ = metaInfo := by
        simpa using same.symm.trans predicted
      refine ⟨size, top ▸ moved_lt _ inside, fun m taken => ?_⟩
      rcases List.mem_cons.1 taken with rfl | taken
      · exact inside
      · exact saved m taken
  | @redirect s s' metas metaInfo pc len type before taken positive fits redirected ih =>
      obtain ⟨rfl, inside, saved⟩ := ih
      obtain ⟨repaired, same, top⟩ :=
        (redirect_top_iff s pc type (saved _ taken) positive).2 fits
      obtain rfl : repaired = s' := Option.some.inj (same.symm.trans redirected)
      exact ⟨(redirect_slots redirected).1, top ▸ moved_lt _ (saved _ taken), saved⟩

/-- `pc + size`, for the size and for the length. -/
theorem pushed_eq_iff {size len : Nat} (pc : Word) (small : size < 2 ^ 31) (short : len < 2 ^ 31) :
    pc + BitVec.ofNat 64 len = pc + BitVec.ofNat 64 size ↔ len = size := by
  rw [BitVec.add_right_inj]
  constructor
  · intro same
    have value := congrArg BitVec.toNat same
    rw [BitVec.toNat_ofNat, BitVec.toNat_ofNat, Nat.mod_eq_of_lt (by omega),
      Nat.mod_eq_of_lt (by omega)] at value
    exact value
  · rintro rfl
    rfl

/-- The redirect repairs the pointer exactly if the length fits. -/
theorem repairs_iff {s : Ras} (inside : s.top < s.size) (stream : BranchStream) (pc : Word)
    {len : Nat} (positive : 0 < len) (type : InstType) :
    s.Repairs stream pc len type ↔ RedirectFits s.size len type s.top := by
  obtain ⟨out, after, predicted, size, top, -⟩ := predict_spec inside stream
  have inside' : after.top < after.size := by
    rw [top, size]
    exact moved_lt _ inside
  constructor
  · rintro ⟨_, _, _, again, repair⟩
    cases predicted.symm.trans again
    obtain ⟨squashed, repaired, followed, redirected, moves⟩ := repair []
    cases followed
    rw [← size] at moves inside ⊢
    exact (redirect_top_iff after pc type inside positive).1 ⟨repaired, redirected, moves⟩
  · intro fits
    refine ⟨out, after, _, predicted, fun wrong => ?_⟩
    obtain ⟨squashed, followed, size'⟩ := predictAll_spec wrong inside'
    rw [← size, ← size'] at fits inside ⊢
    obtain ⟨repaired, redirected, moves⟩ :=
      (redirect_top_iff squashed pc type inside positive).2 fits
    exact ⟨squashed, repaired, followed, redirected, moves⟩

/-- Where the same address is pushed, the pointer is moved alike, too. -/
theorem RestoreFits.redirectFits {size len top : Nat} {type : InstType}
    (fits : RestoreFits size len type top) : RedirectFits size len type top := by
  cases type with
  | push | indPush => exact congrArg _ fits
  | popPush => exact fun _ => Nat.le_of_eq fits
  | pop => exact fits
  | _ => trivial

/-- A wrong path of one call that takes the place of the last. -/
def swapPath (pc : Word) : BranchStream :=
  ⟨⟨false, false, 0, 0⟩, .popPush, false, pc, 0⟩

/-- What a restoring redirect of a branch that pushes says of its length. -/
theorem Restores.len_eq {s : Ras} (inside : s.top < s.size) (small : s.size < 2 ^ 31)
    {stream : BranchStream} {len : Nat} (short : len < 2 ^ 31) (restores : s.Restores stream len)
    {i j : Nat} (predicts : pushSlot s.size stream.type s.top = some i)
    (redirects : pushSlot len stream.type s.top = some j)
    (swaps : i = j ∨ moved s.size stream.type s.top = s.top ∧ i = below s.size s.top) :
    len = s.size := by
  obtain ⟨out, after, predicted, size, top, pushed⟩ := predict_spec inside stream
  have pushed := pushed i predicts
  obtain ⟨_, _, _, again, restore⟩ := restores
  cases predicted.symm.trans again
  by_cases same : i = j
  · -- With no wrong path, the slot holds what the redirect pushed.
    obtain ⟨_, repaired, followed, redirected, -, kept⟩ := restore []
    cases followed
    have wrote := (redirect_slots redirected).2.1 j redirects
    have address := (kept i predicts).trans pushed
    rw [same, wrote] at address
    exact (pushed_eq_iff stream.pc small short).1 address
  · -- The redirect writes elsewhere, so a call of the wrong path stays in the slot.
    obtain ⟨still, slot⟩ := swaps.resolve_left same
    rw [still] at top
    have inside' : after.top < after.size := by
      rw [top, size]
      exact inside
    obtain ⟨_, next, predicted', size', -, swapped⟩ :=
      predict_spec inside' (swapPath (stream.pc + 1))
    obtain ⟨squashed, repaired, followed, redirected, -, kept⟩ :=
      restore [swapPath (stream.pc + 1)]
    rw [predictAll, predicted'] at followed
    obtain rfl : next = squashed := Option.some.inj followed
    have other : i ∉ pushSlot len stream.type s.top := by
      rw [redirects]
      exact fun mem => same (Option.some.inj mem).symm
    have left := (redirect_slots redirected).2.2 i other
    have swapped := swapped i (by rw [top, size, slot]; rfl)
    have address := (kept i predicts).trans pushed
    rw [left, swapped, size] at address
    have next := (BitVec.add_left_inj _).1 address
    exact absurd next (by simp [swapPath])

/-- The redirect restores what the prediction left exactly if the length is the size, for a
branch that pushes. -/
theorem restores_iff {s : Ras} (inside : s.top < s.size) (small : s.size < 2 ^ 31)
    (stream : BranchStream) {len : Nat} (positive : 0 < len) (short : len < 2 ^ 31) :
    s.Restores stream len ↔ RestoreFits s.size len stream.type s.top := by
  constructor
  · intro restores
    -- The pointer alone is repaired, so the condition for the pointer holds.
    have fits : RedirectFits s.size len stream.type s.top := by
      refine (repairs_iff inside stream stream.pc positive stream.type).1 ?_
      obtain ⟨out, after, metaInfo, predicted, restore⟩ := restores
      obtain ⟨_, _, again, -, top, -⟩ := predict_spec inside stream
      cases predicted.symm.trans again
      refine ⟨out, after, _, predicted, fun wrong => ?_⟩
      obtain ⟨squashed, repaired, followed, redirected, pointer, -⟩ := restore wrong
      exact ⟨squashed, repaired, followed, redirected, pointer.trans top⟩
    cases type : stream.type with
    | push | indPush =>
        refine restores.len_eq (i := s.top) (j := s.top) inside small short ?_ ?_ (.inl rfl)
        · rw [type]; rfl
        · rw [type]; rfl
    | popPush =>
        refine restores.len_eq (i := below s.size s.top) (j := below len s.top) inside small short
          ?_ ?_ (.inr ⟨?_, rfl⟩)
        · rw [type]; rfl
        · rw [type]; rfl
        · rw [type]; rfl
    | pop =>
        rw [type] at fits
        exact fits
    | _ => trivial
  · intro fits
    obtain ⟨out, after, predicted, size, top, pushed⟩ := predict_spec inside stream
    refine ⟨out, after, _, predicted, fun wrong => ?_⟩
    have inside' : after.top < after.size := by
      rw [top, size]
      exact moved_lt _ inside
    obtain ⟨squashed, followed, size'⟩ := predictAll_spec wrong inside'
    have whole : squashed.size = s.size := size'.trans size
    obtain ⟨repaired, redirected, moves⟩ :=
      (redirect_top_iff squashed stream.pc stream.type (whole ▸ inside) positive).2
        (whole ▸ fits.redirectFits)
    rw [whole, ← top] at moves
    refine ⟨squashed, repaired, followed, redirected, moves, fun i slot => ?_⟩
    -- Only a push asks for its slot, and there the sizes are equal.
    have length : len = s.size := by
      cases type : stream.type with
      | push | indPush | popPush =>
          rw [type] at fits
          exact fits
      | _ =>
          rw [type] at slot
          cases slot
    rw [pushed i slot, ← length]
    exact (redirect_slots redirected).2.1 i (length ▸ slot)

end Ras

/-- Runs whose redirects fit keep the pointer inside the stack, and in their states the redirect
of a prediction repairs the pointer, or restores what the prediction left, if and only if its
length fits. The parameter `size` of `RAS::redirect` is the length of the instruction and hides
the member of that name, so the pointer goes round at the length. -/
theorem rasRepair_iff {size : Nat} (large : 2 ≤ size) (small : size < 2 ^ 31) {s : Ras}
    {metas : List RasMeta} (reached : Ras.Reached size s metas) :
    s.top < size ∧
      ∀ stream pc len type, 0 < len → len < 2 ^ 31 →
        (s.Repairs stream pc len type ↔ Ras.RedirectFits size len type s.top) ∧
        (s.Restores stream len ↔ Ras.RestoreFits size len stream.type s.top) := by
  obtain ⟨rfl, inside, -⟩ := reached.inside large
  refine ⟨inside, fun stream pc len type positive short => ⟨?_, ?_⟩⟩
  · exact Ras.repairs_iff inside stream pc positive type
  · exact Ras.restores_iff inside small stream positive short

/-- A call of four bytes. -/
def callAt (pc : Word) : BranchStream := ⟨⟨false, false, 0, 0⟩, .push, false, pc, 0⟩

/-- The stack after three calls. -/
theorem reached_threeCalls : ∃ s metas, Ras.Reached 16 s metas ∧ s.top = 3 := by
  have start : Ras.Reached 16 _ [] := .afterLoad fun _ => 0
  have first := start.predict (rfl : Ras.predict (callAt 0) _ = some _)
  have second := first.predict (rfl : Ras.predict (callAt 4) _ = some _)
  exact ⟨_, _, second.predict (rfl : Ras.predict (callAt 8) _ = some _), rfl⟩

/-- The repair of a return that was mispredicted after three calls. -/
theorem rasRepair_iff_threeCalls :
    ∃ s metas, Ras.Reached 16 s metas ∧ (s.Repairs (callAt 12) 12 4 .pop) := by
  obtain ⟨s, metas, reached, top⟩ := reached_threeCalls
  have law := (rasRepair_iff (by decide) (by decide) reached).2 (callAt 12) 12 4 .pop
  refine ⟨s, metas, reached, (law (by decide) (by decide)).1.2 fun zero => ?_⟩
  exact absurd (top.symm.trans zero) (by decide)

/-- The redirect of the fourth call brings the pointer back to 0, and pushes another address. -/
theorem not_rasRepair_fourthCall :
    ∃ s metas, Ras.Reached 16 s metas ∧ ¬ s.Repairs (callAt 12) 12 4 .push ∧
      ¬ s.Restores (callAt 12) 4 := by
  obtain ⟨s, metas, reached, top⟩ := reached_threeCalls
  obtain ⟨size, inside, -⟩ := reached.inside (by decide)
  have small : s.size < 2 ^ 31 := size ▸ by decide
  rw [← size] at inside
  refine ⟨s, metas, reached, ?_, ?_⟩
  · rw [Ras.repairs_iff inside _ _ (by decide), top, size]
    exact fun fits : 4 % 4 = 4 % 16 => absurd fits (by decide)
  · rw [Ras.restores_iff inside small _ (by decide) (by decide), size]
    exact fun fits : 4 = 16 => absurd fits (by decide)

end CPUDelaySim
