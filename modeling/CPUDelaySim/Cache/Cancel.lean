import CPUDelaySim.Cache.System

/-!
# Cancelled requests

`redirect` cannot take a request back from the parent, so it sets `req_clear_wait`, and the
parent's callback clears it; until then no miss is sent.  But `redirect` goes by the state,
and the state stays `REFILL` after the callback until the next tick, which is a whole flush
away when one is on.  A `redirect` in that time waits for an answer nobody owes.  `ICache`
knows when it is called from inside the callback; `DCache` does not.

Between two steps at most one request is out, and no callback is under way (`Between`).  With that,
whether a step does harm can be read off the state before it (`Fair`): a fair step sets
`req_clear_wait` only for a request that is out, and an unfair one sets it when nothing is
(`stuck_moves`), from where no answer can come.  So the condition of `releasable_iff` is exact, and
it is one for each class: `DCache` has to be spared one kind of step more.
-/

namespace CPUDelaySim.CacheSystem

variable {O : Type}

/-- A miss that waits for a cancelled request is let go. -/
structure Releasable (c : Cache O) (s : CacheSystem O) : Prop where
  /-- `req_clear_wait` waits for a request the parent has accepted and not answered. -/
  owed : s.cache.reqClearWait = true → s.outstanding ≠ []
  /-- The answer clears it. -/
  released : s.cache.reqClearWait = true → ∀ index reenters,
    Returns (step c s (.answer index reenters)) fun s' => s'.cache.reqClearWait = false
  /-- Then the miss is sent as soon as the parent accepts it. -/
  sent : s.cache.flushValid = false → s.cache.state = .lookup → s.cache.matched = false →
    s.cache.reqClearWait = false → ∀ reenters,
    Returns (step c s (.tick true reenters)) fun s' => s'.cache.state = .miss

variable {p : CacheParams} {c : Cache O} {inCallback : O → Bool} {strays : Bool} {wrap : Int → Int}

/-- A cache that is waiting for an answer to drop can be released by that answer. -/
theorem releasable_of_owed (contract : c.Contract p inCallback strays wrap) {s : CacheSystem O}
    (owed : s.cache.reqClearWait = true → s.outstanding ≠ []) : s.Releasable c where
  owed := owed
  released := by
    intro wait index reenters s' moved
    cases step_moves contract moved with
    | answered _ _ fetch flushes cache out owed ran fills =>
        cases fills with
        | cancelled tagvs own wait installs => rfl
        | delivered tagvs own state flag valid clear installs next why dropped =>
            rw [clear] at wait
            cases wait
  sent := by
    intro off looking unmatched clear reenters s' moved
    cases step_moves contract moved with
    | ticked _ _ cache out ran ticks =>
        cases ticks with
        | sent req own off state unmatched clear taken id => rfl
        | flushed num on => exact absurd (on.symm.trans off) nofun
        | stays off resting => rcases resting with ⟨at_, -⟩ | at_ | at_ <;> simp_all
        | hit req state own off ready waiting id found next =>
            rcases ready with at_ | ⟨-, matched⟩ <;> simp_all
        | missed req own off ready waiting id addr absent =>
            rcases ready with at_ | ⟨-, matched⟩ <;> simp_all
        | held req off state unmatched id why => simp_all
        | done state valid tagvs off answered next dropped kept =>
            rcases answered with ⟨-, matched⟩ | at_ | at_ <;> simp_all

/-- Between calls, the cache is not in its callback. -/
structure Between (inCallback : O → Bool) (s : CacheSystem O) : Prop where
  one : s.OneRequest
  outside : inCallback s.cache.own = false

/-- Every step keeps what holds between two of them. -/
theorem Between.moves (contract : c.Contract p inCallback strays wrap) {s s' : CacheSystem O}
    {j : CacheStep} (inv : s.Between inCallback) (moved : step c s j = .ok s') :
    s'.Between inCallback := by
  have moves := step_moves contract moved
  refine ⟨inv.one.moves moves, ?_⟩
  cases moves with
  | refused req => exact inv.outside
  | accepted req off ready => exact inv.outside
  | flushed num ran => exact inv.outside
  | redirected => exact inv.outside
  | ticked accepts reenters cache out ran ticks =>
      have same := contract.tick_inCallback accepts reenters s.cache
      rw [ran] at same
      exact same.trans inv.outside
  | answered index reenters fetch flushes cache out owed ran fills =>
      have outside := contract.callback_inCallback reenters s.cache
      rwa [ran] at outside

/-- A step that does not set `req_clear_wait` without reason: no `redirect` between an answer
and the tick after it, and, where the callback does not know better, none from inside it. -/
def Fair (strays : Bool) (s : CacheSystem O) : CacheStep → Prop
  | .redirect => s.cache.state ≠ .refill
  | .answer index reenters =>
      strays = true → reenters = true → index < s.outstanding.length →
        s.cache.reqClearWait = true
  | _ => True

/-- A fair step keeps what `req_clear_wait` waits for. -/
theorem owed_moves {s s' : CacheSystem O} {j : CacheStep} (one : s.OneRequest)
    (owed : s.cache.reqClearWait = true → s.outstanding ≠ []) (fair : s.Fair strays j)
    (moved : s.Moves p c inCallback strays j s') :
    s'.cache.reqClearWait = true → s'.outstanding ≠ [] := by
  cases moved with
  | refused req => exact owed
  | accepted req off ready => exact owed
  | flushed num ran => exact owed
  | redirected =>
      intro wait
      simp only [CacheState.cancels, Bool.or_eq_true, Bool.and_eq_true, beq_iff_eq] at wait
      rcases wait with (wait | miss) | ⟨refill, -⟩
      · exact owed wait
      · exact one.owing miss
      · exact absurd refill fair
  | ticked accepts reenters cache out ran ticks =>
      intro wait none
      rw [(ticks_requests ticks s.flushes).1] at wait
      exact owed wait (List.append_eq_nil_iff.1 none).1
  | answered index reenters fetch flushes cache out asked ran fills =>
      have inside : index < s.outstanding.length := (List.getElem?_eq_some_iff.1 asked).1
      cases fills with
      | cancelled tagvs own wait installs => rintro ⟨⟩
      | delivered tagvs own state flag valid clear installs next why dropped =>
          intro wait
          obtain ⟨can, reentered, -⟩ := why.1 wait
          rw [fair can reentered inside] at clear
          cases clear

/-- An unfair step leaves a cache that waits for nothing. -/
theorem stuck_moves {s s' : CacheSystem O} {j : CacheStep} (inv : s.Between inCallback)
    (unfair : ¬ s.Fair strays j) (moved : s.Moves p c inCallback strays j s') :
    s'.cache.reqClearWait = true ∧ s'.outstanding = [] := by
  cases moved with
  | refused req => exact absurd trivial unfair
  | accepted req off ready => exact absurd trivial unfair
  | flushed num ran => exact absurd trivial unfair
  | ticked accepts reenters cache out ran ticks => exact absurd trivial unfair
  | redirected =>
      have refill : s.cache.state = .refill := Decidable.not_not.1 unfair
      refine ⟨?_, inv.one.refill refill⟩
      simp [CacheState.cancels, refill, inv.outside]
  | answered index reenters fetch flushes cache out asked ran fills =>
      simp only [Fair, Classical.not_imp, Bool.not_eq_true] at unfair
      obtain ⟨can, reentered, -, clear⟩ := unfair
      obtain ⟨alone, none⟩ := inv.one.eraseIdx asked
      refine ⟨?_, none⟩
      have miss : s.cache.state = .miss := by
        refine (inv.one.owed (by rw [alone]; rintro ⟨⟩)).resolve_right ?_
        rw [clear]
        rintro ⟨⟩
      cases fills with
      | cancelled tagvs own wait installs =>
          rw [clear] at wait
          cases wait
      | delivered tagvs own state flag valid clear installs next why dropped =>
          exact why.2 ⟨can, reentered, .inl miss⟩

/-- No state of a run is stuck exactly when no step of it is unfair. -/
theorem contract_releasable_iff (contract : c.Contract p inCallback strays wrap) (req : CacheReq)
    {own : O} (outside : inCallback own = false) (steps : List CacheStep) :
    (∀ before, before <+: steps →
      Returns (runSteps (step c) (start (.afterLoad p req own)) before) (Releasable c)) ↔
    ∀ t j, Visits (step c) (start (.afterLoad p req own)) steps t j →
      (∃ t', step c t j = .ok t') → t.Fair strays j := by
  have between (before : List CacheStep) :
      Returns (runSteps (step c) (start (.afterLoad p req own)) before)
        (Between inCallback) := by
    refine runSteps_invariant (fun s j inv s' moved => inv.moves contract moved) ?_ before
    exact ⟨start_oneRequest p req own, outside⟩
  constructor
  · intro all t j visit
    rintro ⟨t', moved⟩
    by_contra unfair
    obtain ⟨before, after, rfl, ends⟩ := (visits_iff ..).1 visit
    have reached : runSteps (step c) (start (.afterLoad p req own)) (before ++ [j]) = .ok t' := by
      rw [runSteps_append, ends]
      change (step c t j >>= fun s => .ok s) = .ok t'
      rw [moved]
      rfl
    obtain ⟨wait, none⟩ := stuck_moves (between before t ends) unfair (step_moves contract moved)
    have part : before ++ [j] <+: before ++ j :: after := ⟨after, by simp⟩
    exact (all _ part t' reached).owed wait none
  · intro fair before part
    have kept : Returns (runSteps (step c) (start (.afterLoad p req own)) before) fun s =>
        s.OneRequest ∧ (s.cache.reqClearWait = true → s.outstanding ≠ []) := by
      refine runSteps_prefix_invariant ⟨start_oneRequest p req own, nofun⟩ ?_ part
      intro s j visit inv s' moved
      have moves := step_moves contract moved
      exact ⟨inv.1.moves moves, owed_moves inv.1 inv.2 (fair s j visit ⟨s', moved⟩) moves⟩
    exact kept.mono fun s inv => releasable_of_owed contract inv.2

/-- Neither cache gets stuck, exactly as long as the client calls `redirect` neither between an
answer and the tick after it, nor, in `DCache`, from the callback of an answer. There `redirect`
finds `REFILL` or `MISS`, sets `req_clear_wait`, and no answer is owed any more that could clear
it. -/
theorem releasable_iff (p : CacheParams) (steps : List CacheStep) :
    ((∀ before, before <+: steps →
        Returns (runSteps (step (iCache p)) (start (ICache.afterLoad p)) before)
          (Releasable (iCache p))) ↔
      ∀ t, Visits (step (iCache p)) (start (ICache.afterLoad p)) steps t .redirect →
        t.cache.state ≠ .refill) ∧
    ((∀ before, before <+: steps →
        Returns (runSteps (step (dCache p)) (start (DCache.afterLoad p)) before)
          (Releasable (dCache p))) ↔
      (∀ t, Visits (step (dCache p)) (start (DCache.afterLoad p)) steps t .redirect →
        t.cache.state ≠ .refill) ∧
      ∀ t index, Visits (step (dCache p)) (start (DCache.afterLoad p)) steps t
          (.answer index true) →
        index < t.outstanding.length → t.cache.reqClearWait = true) := by
  refine ⟨?_, ?_⟩
  · refine (contract_releasable_iff (iCache_contract p) _ rfl steps).trans ⟨?_, ?_⟩
    · intro fair t visit
      exact fair t _ visit ⟨_, rfl⟩
    · rintro fair t (_ | _ | _ | _ | _) visit -
      case redirect => exact fair t visit
      case answer => exact nofun
      all_goals trivial
  · refine (contract_releasable_iff (dCache_contract p) _ rfl steps).trans ⟨?_, ?_⟩
    · intro fair
      refine ⟨fun t visit => fair t _ visit ⟨_, rfl⟩, fun t index visit inside => ?_⟩
      refine fair t _ visit ?_ rfl rfl inside
      simp [step, List.getElem?_eq_getElem inside]
    · rintro ⟨redirects, answers⟩ t (_ | _ | _ | _ | _) visit -
      case redirect => exact redirects t visit
      case answer index reenters =>
        rintro - rfl inside
        exact answers t index visit inside
      all_goals trivial

/-- A miss is sent, a flush starts, the answer comes, and the client redirects before the
flush is over. -/
def stuckSteps : List CacheStep :=
  [.lookup ⟨.readShared, 4, fun _ => 0, 0x80000000⟩, .tick true false, .tick true false, .flush,
    .answer 0 false, .tick true false, .redirect]

/-- Both caches then wait for an answer nobody owes. -/
theorem not_releasable_stuckSteps :
    ¬ Returns (runSteps (step (iCache .shipped)) (start (ICache.afterLoad .shipped)) stuckSteps)
        (Releasable (iCache .shipped)) ∧
      ¬ Returns (runSteps (step (dCache .shipped)) (start (DCache.afterLoad .shipped)) stuckSteps)
        (Releasable (dCache .shipped)) := by
  refine ⟨fun all => ?_, fun all => ?_⟩
  · obtain ⟨s, ran, stuck⟩ := exists_ok_of_toOption
      (x := runSteps (step (iCache .shipped)) (start (ICache.afterLoad .shipped)) stuckSteps)
      (f := fun s => (s.cache.reqClearWait, s.outstanding)) (b := (true, [])) (by decide +kernel)
    exact (all s ran).owed (congrArg Prod.fst stuck) (congrArg Prod.snd stuck)
  · obtain ⟨s, ran, stuck⟩ := exists_ok_of_toOption
      (x := runSteps (step (dCache .shipped)) (start (DCache.afterLoad .shipped)) stuckSteps)
      (f := fun s => (s.cache.reqClearWait, s.outstanding)) (b := (true, [])) (by decide +kernel)
    exact (all s ran).owed (congrArg Prod.fst stuck) (congrArg Prod.snd stuck)

end CPUDelaySim.CacheSystem
