import CPUDelaySim.Cache.System

/-!
# Flushes

A flush clears one set each tick, and the state machine stands still meanwhile.  The parent
does not: its answer makes a line valid in whatever set the request was for.  Ahead of
`flush_set` the line is cleared in its turn, behind it the line survives the flush.

`ICache` counts the sets in a `uint16_t`, so with more than `65536` of them the count runs
out before the last set is reached.

`Swept` is the loop invariant of a flush that is under way: behind `flush_set` no way is valid, and
`flush_num` is the number of sets still to come, as far as its width can hold it.  `Counts` says
when the width makes no difference, so the two classes need one proof.
-/

namespace CPUDelaySim.CacheSystem

variable {O : Type}

/-- No valid line was asked for before the last `flush`. -/
def Flushed (p : CacheParams) (s : CacheSystem O) : Prop :=
  ∀ set < p.setSize, ∀ way < p.way,
    (s.cache.tagvs set way).valid = true → s.flushes ≤ s.filledBy set way

/-- Every flush of the run that ends leaves no line from before it. -/
def FlushesCompletely (p : CacheParams) (c : Cache O) (start : CacheSystem O)
    (steps : List CacheStep) : Prop :=
  ∀ t accepts reenters, Visits (step c) start steps t (.tick accepts reenters) →
    t.cache.flushValid = true →
    Returns (step c t (.tick accepts reenters)) fun s =>
      s.cache.flushValid = false → s.Flushed p

/-- No answer comes for a set the flush has passed. -/
def AnswersAhead (s : CacheSystem O) : CacheStep → Prop
  | .answer index _ => s.cache.flushValid = true → index < s.outstanding.length →
      s.cache.flushSet ≤ s.cache.lookupLine.set
  | _ => True

instance (s : CacheSystem O) : DecidablePred s.AnswersAhead
  | .answer _ _ => inferInstanceAs (Decidable (_ → _ → _))
  | .lookup _ | .tick _ _ | .flush | .redirect => .isTrue trivial

/-- Behind `flush_set` nothing is valid, and `flush_num` counts what is left. -/
def Swept (p : CacheParams) (wrap : Int → Int) (s : CacheSystem O) : Prop :=
  s.cache.flushValid = true →
    s.cache.flushSet < p.setSize ∧
      s.cache.flushNum = wrap (p.setSize - s.cache.flushSet) ∧
      ∀ set < s.cache.flushSet, ∀ way, (s.cache.tagvs set way).valid = false

/-- A `flush_num` wide enough to count the sets. -/
structure Counts (p : CacheParams) (wrap : Int → Int) : Prop where
  pred : ∀ n, wrap (wrap n - 1) = wrap (n - 1)
  zero : ∀ n : Int, 0 ≤ n → n < p.setSize → (wrap n = 0 ↔ n = 0)

variable {p : CacheParams} {c : Cache O} {inCallback : O → Bool} {strays : Bool}
  {wrap : Int → Int}

/-- One tick of a flush. -/
theorem Swept.flushTick {s : CacheState O} (counts : Counts p wrap) (on : s.flushValid = true)
    (low : s.flushSet < p.setSize) (num : s.flushNum = wrap (p.setSize - s.flushSet))
    (clear : ∀ set < s.flushSet, ∀ way, (s.tagvs set way).valid = false) :
    let s' := CPUDelaySim.flushTick p (wrap (s.flushNum - 1)) s
    (s'.flushValid = true → s'.flushSet < p.setSize ∧
      s'.flushNum = wrap (p.setSize - s'.flushSet) ∧
      ∀ set < s'.flushSet, ∀ way, (s'.tagvs set way).valid = false) ∧
    (s'.flushValid = false → ∀ set < p.setSize, ∀ way, (s'.tagvs set way).valid = false) := by
  have left : wrap (s.flushNum - 1) = wrap (p.setSize - (s.flushSet + 1 : Nat)) := by
    rw [num, counts.pred]
    congr 1
    omega
  have last : wrap (s.flushNum - 1) = 0 ↔ s.flushSet + 1 = p.setSize := by
    rw [left, counts.zero _ (by omega) (by omega)]
    omega
  have swept (set : Nat) (behind : set < s.flushSet + 1) (way : Nat) :
      (s.tagvs.clearSet s.flushSet set way).valid = false := by
    by_cases here : set = s.flushSet
    · simp [Tagvs.clearSet, here]
    · simp [Tagvs.clearSet, here, clear set (by omega) way]
  dsimp only [CPUDelaySim.flushTick]
  by_cases ends : wrap (s.flushNum - 1) = 0
  · rw [if_pos ends]
    refine ⟨by rintro ⟨⟩, fun _ set bound way => swept set ?_ way⟩
    rw [last.1 ends]
    exact bound
  · rw [if_neg ends]
    have more : s.flushSet + 1 < p.setSize := by
      have := mt last.2 ends
      omega
    rw [Nat.mod_eq_of_lt more]
    refine ⟨fun _ => ⟨more, left, swept⟩, fun off => ?_⟩
    rw [on] at off
    cases off

/-- A tick outside a flush starts none. -/
theorem ticks_off {accepts reenters : Bool} {s s' : CacheState O} {out : List Event}
    (ticks : s.Ticks p accepts reenters s' out) (off : s.flushValid = false) :
    s'.flushValid = false := by
  cases ticks with
  | flushed num on =>
      rw [off] at on
      cases on
  | stays => exact off
  | hit => exact off
  | missed => exact off
  | held => exact off
  | sent => exact off
  | done => exact off

/-- The callback leaves the flush where it is, and fills one set. -/
theorem fills_flush {reenters : Bool} {s s' : CacheState O} {out : List Event}
    (fills : s.Fills strays reenters s' out) :
    s'.flushValid = s.flushValid ∧ s'.flushSet = s.flushSet ∧ s'.flushNum = s.flushNum ∧
      ∀ set ≠ s.lookupLine.set, ∀ way, s'.tagvs set way = s.tagvs set way := by
  have elsewhere {tagvs : Tagvs} (installs : s.Installs tagvs) (set : Nat)
      (other : set ≠ s.lookupLine.set) (way : Nat) : tagvs set way = s.tagvs set way := by
    obtain ⟨f, -, rfl⟩ := installs
    simp [Tagvs.write, other]
  cases fills with
  | cancelled tagvs own wait installs => exact ⟨rfl, rfl, rfl, elsewhere installs⟩
  | delivered tagvs own state flag valid clear installs next why dropped =>
      exact ⟨rfl, rfl, rfl, elsewhere installs⟩

/-- A step of the sweep clears one set more, and no answer fills a set behind it. -/
theorem Swept.moves (contract : c.Contract p inCallback strays wrap) (counts : Counts p wrap)
    {s s' : CacheSystem O} {j : CacheStep} (inv : s.Swept p wrap) (ahead : s.AnswersAhead j)
    (moved : s.Moves p c inCallback strays j s') : s'.Swept p wrap := by
  cases moved with
  | refused req => exact inv
  | accepted req off ready => exact inv
  | redirected => exact inv
  | flushed num ran =>
      rw [contract.flush] at ran
      have num : wrap p.setSize = num := congrArg CacheState.flushNum ran
      intro on
      refine ⟨p.setSize_pos, ?_, nofun⟩
      simp [flushWith, num]
  | ticked accepts reenters cache out ran ticks =>
      intro on
      by_cases was : s.cache.flushValid = true
      · obtain ⟨low, num, clear⟩ := inv was
        rw [contract.flushes accepts reenters s.cache was] at ran
        cases ran
        exact (Swept.flushTick counts was low num clear).1 on
      · have off := ticks_off ticks (Bool.eq_false_iff.2 was)
        rw [off] at on
        cases on
  | answered index reenters fetch flushes cache out owed ran fills =>
      obtain ⟨valid, set, num, elsewhere⟩ := fills_flush fills
      have inside : index < s.outstanding.length := (List.getElem?_eq_some_iff.1 owed).1
      unfold Swept
      dsimp only
      rw [valid, set, num]
      intro on
      obtain ⟨low, num, clear⟩ := inv on
      have ahead : s.cache.flushSet ≤ s.cache.lookupLine.set := ahead on inside
      refine ⟨low, num, fun set behind way => ?_⟩
      rw [elsewhere set (by omega) way]
      exact clear set behind way

/-- In a run whose answers stay ahead of the flushes, every flush is complete. -/
theorem contract_flushesCompletely (contract : c.Contract p inCallback strays wrap)
    (counts : Counts p wrap) (req : CacheReq) (own : O) (steps : List CacheStep)
    (ahead : ∀ t j, Visits (step c) (start (.afterLoad p req own)) steps t j →
      t.AnswersAhead j) :
    FlushesCompletely p c (start (.afterLoad p req own)) steps := by
  intro t accepts reenters visit on t' moved off set bound way low valid
  have swept : t.Swept p wrap := by
    refine visit.invariant nofun ?_
    intro u k visit inv u' moved
    exact inv.moves contract counts (ahead u k visit) (step_moves contract moved)
  obtain ⟨start, num, clear⟩ := swept on
  rw [step, contract.flushes accepts reenters t.cache on] at moved
  cases moved
  have empty := (Swept.flushTick counts on start num clear).2 off set bound way
  rw [empty] at valid
  cases valid

/-- Flushes are complete in `ICache`, as long as `flush_num` can count its sets, and in
`DCache`, as long as no answer comes for a set the flush has passed. A flush clears a set in
each tick, and an answer in between makes a line valid wherever it belongs; behind the flush it
stays. -/
theorem flushesCompletely_of_answersAhead (p : CacheParams) (steps : List CacheStep) :
    (p.setSize ≤ 65536 →
      (∀ t j, Visits (step (iCache p)) (start (ICache.afterLoad p)) steps t j →
        t.AnswersAhead j) →
      FlushesCompletely p (iCache p) (start (ICache.afterLoad p)) steps) ∧
    ((∀ t j, Visits (step (dCache p)) (start (DCache.afterLoad p)) steps t j →
        t.AnswersAhead j) →
      FlushesCompletely p (dCache p) (start (DCache.afterLoad p)) steps) := by
  refine ⟨fun few => ?_, ?_⟩
  · refine contract_flushesCompletely (iCache_contract p) ⟨?_, ?_⟩ _ _ steps
    · intro n
      omega
    · intro n low high
      omega
  · exact contract_flushesCompletely (dCache_contract p) ⟨fun _ => rfl, fun _ _ _ => .rfl⟩ _ _ steps

/-- A miss of set 63 that is answered during a flush. -/
def aheadSteps : List CacheStep :=
  [.lookup ⟨.readShared, 4, fun _ => 0, 0x80000fc0⟩, .tick true false, .tick true false, .flush,
    .tick true false, .answer 0 false] ++ List.replicate 63 (.tick true false)

/-- A run with a flush, of both caches. -/
theorem flushesCompletely_of_answersAhead_aheadSteps :
    FlushesCompletely .shipped (iCache .shipped) (start (ICache.afterLoad .shipped)) aheadSteps ∧
      FlushesCompletely .shipped (dCache .shipped) (start (DCache.afterLoad .shipped))
        aheadSteps := by
  refine ⟨(flushesCompletely_of_answersAhead .shipped aheadSteps).1 (by decide) ?_,
    (flushesCompletely_of_answersAhead .shipped aheadSteps).2 ?_⟩ <;>
  · rw [← trail_iff]
    decide +kernel

/-- A line of set 0 that is older than the flush whose last tick it outlives. -/
theorem not_flushesCompletely_of_older {p : CacheParams} {c : Cache O} {start : CacheSystem O}
    {before : List CacheStep}
    (older : (runSteps (step c) start before).toOption.map (fun t =>
        (t.cache.flushValid, (step c t (.tick true false)).toOption.map fun s =>
          (s.cache.flushValid, (s.cache.tagvs 0 0).valid, decide (s.flushes ≤ s.filledBy 0 0)))) =
      some (true, some (false, true, false))) :
    ¬ FlushesCompletely p c start (before ++ [.tick true false]) := by
  intro complete
  obtain ⟨t, ran, last⟩ := exists_ok_of_toOption older
  obtain ⟨on, rest⟩ := Prod.mk.inj last
  obtain ⟨s, moved, outlived⟩ := exists_ok_of_toOption rest
  obtain ⟨off, valid, old⟩ := Prod.mk.inj outlived |>.imp_right Prod.mk.inj
  have visit : Visits (step c) start (before ++ [.tick true false]) t (.tick true false) :=
    (visits_iff ..).2 ⟨before, [], rfl, ran⟩
  have newer := complete t true false visit on s moved off 0 p.setSize_pos 0 p.way_pos valid
  exact of_decide_eq_false old newer

/-- The same miss in set 0, which the flush has passed when the answer comes. -/
def behindSteps : List CacheStep :=
  [.lookup ⟨.readShared, 4, fun _ => 0, 0x80000000⟩, .tick true false, .tick true false, .flush,
    .tick true false, .answer 0 false] ++ List.replicate 62 (.tick true false)

/-- The line survives the flush. -/
theorem not_flushesCompletely_behindSteps :
    ¬ FlushesCompletely .shipped (iCache .shipped) (start (ICache.afterLoad .shipped))
        (behindSteps ++ [.tick true false]) ∧
      ¬ FlushesCompletely .shipped (dCache .shipped) (start (DCache.afterLoad .shipped))
        (behindSteps ++ [.tick true false]) := by
  refine ⟨not_flushesCompletely_of_older ?_, not_flushesCompletely_of_older ?_⟩ <;>
    decide +kernel

end CPUDelaySim.CacheSystem
