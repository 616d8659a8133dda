import CPUDelaySim.Cache.Answers

/-!
# A client that lets the cache take up its lookup

`ICache::lookup` accepts a lookup in `idle_req` even when another one is there already, which is
then lost.  `EMU::run` ticks the caches before every `exec`, and a tick takes up what is in
`idle_req`; so a processor that makes one lookup for every tick never loses one.  What it is owed an
answer for is then in the cache, and is one lookup at most.

`Awaits` has a flag for the time after a tick, when nothing is left in `idle_req`.  A `lookup`
needs the flag and clears it, and a tick sets it again; so a client that calls `lookup` at most
once between two ticks never overwrites its own lookup.  `Learns` is what it hears in return: that
the lookup is answered, or nothing.  The pipeline is such a client.
-/

namespace CPUDelaySim

/-- The client is told of its lookup. -/
def Event.isAnswered : Event → Bool
  | .answered _ => true
  | _ => false

namespace CacheSystem

/-- The lookup that is owed an answer is in the cache.  When it is `rested`, the cache has taken
up every lookup. -/
structure Awaits (rested : Bool) (s : CacheSystem ICache.Own) : Prop where
  one : s.OneRequest
  tracks : s.Tracks
  owed : (waiting s.log).isSome = true → s.cache.idleReqValid = true ∨
    (s.cache.state = .lookup ∧ s.cache.matched = false ∨ s.cache.state = .miss)
  ready : s.cache.idleReqValid = true → s.cache.flushValid = false ∧
    (s.cache.state = .idle ∨ s.cache.state = .lookup ∧ s.cache.matched = true)
  taken : rested = true → s.cache.idleReqValid = false

/-- What the client learns from a tick or an answer of the parent: nothing, or that its lookup is
answered. -/
def Learns (s t : CacheSystem ICache.Own) : Prop :=
  ∃ out, t.log = s.log ++ out ∧
    (out.any Event.isAnswered = false ∧ waiting t.log = waiting s.log ∨
      out.any Event.isAnswered = true ∧ (waiting s.log).isSome = true ∧ waiting t.log = none)

variable {rested : Bool} {s t : CacheSystem ICache.Own}

/-- At first nothing is asked for. -/
theorem start_awaits (p : CacheParams) : (start (ICache.afterLoad p)).Awaits false where
  one := start_oneRequest p _ _
  tracks := start_tracks p _ _
  owed := by rintro ⟨⟩
  ready := by rintro ⟨⟩
  taken := by rintro ⟨⟩

/-- A cache that may rest may as well be busy. -/
theorem Awaits.busy (awaits : s.Awaits rested) : s.Awaits false :=
  ⟨awaits.one, awaits.tracks, awaits.owed, awaits.ready, by rintro ⟨⟩⟩

/-- A cache that could take another lookup has none left. -/
theorem Awaits.none_of_ready (awaits : s.Awaits true)
    (ready : s.cache.state = .idle ∨ s.cache.state = .lookup ∧ s.cache.matched = true) :
    waiting s.log = none := by
  by_contra some
  rcases awaits.owed (Option.isSome_iff_ne_none.2 some) with valid | ⟨lookup, unmatched⟩ | miss
  · cases valid.symm.trans (awaits.taken rfl)
  · rcases ready with idle | ⟨-, matched⟩
    · cases idle.symm.trans lookup
    · cases matched.symm.trans unmatched
  · rcases ready with idle | ⟨lookup, -⟩
    · cases idle.symm.trans miss
    · cases lookup.symm.trans miss

/-- What has been told is waited for no more. -/
theorem waiting_told (waits : Option (BitVec 16)) (id : BitVec 16) (reenters : Bool) :
    (told id reenters).foldl await waits = none := by
  cases reenters <;> rfl

/-! ### Calls of the client -/

/-- A lookup is refused, or it is the only one. -/
theorem Awaits.lookup (p : CacheParams) (awaits : s.Awaits true) (req : CacheReq) :
    Returns (step (iCache p) s (.lookup req)) fun t => t.Awaits false ∧
      ((ICache.lookup req s.cache).2 = false ∧ waiting t.log = waiting s.log ∨
        (ICache.lookup req s.cache).2 = true ∧ waiting s.log = none ∧
          (waiting t.log).isSome = true) := by
  intro t moved
  have moves := step_moves (iCache_contract p) moved
  have one := awaits.one.moves moves
  have tracks := awaits.tracks.moves awaits.one moves
  rcases (iCache_contract p).lookup req s.cache with refused | ⟨off, ready, taken⟩
  · rw [step, refused] at moved
    cases moved
    refine ⟨⟨one, tracks, ?_, awaits.ready, by rintro ⟨⟩⟩, .inl ⟨congrArg Prod.snd refused, ?_⟩⟩
    · rw [waiting_append]
      exact awaits.owed
    · rw [waiting_append]
      rfl
  · rw [step, taken] at moved
    cases moved
    refine ⟨⟨one, tracks, fun _ => .inl rfl, fun _ => ⟨off, ready⟩, by rintro ⟨⟩⟩,
      .inr ⟨congrArg Prod.snd taken, awaits.none_of_ready ready, ?_⟩⟩
    rw [waiting_append]
    rfl

/-- After a redirect nothing is owed. -/
theorem Awaits.redirect (p : CacheParams) (awaits : s.Awaits rested) :
    Returns (step (iCache p) s .redirect) fun t => t.Awaits true ∧ waiting t.log = none := by
  intro t moved
  have moves := step_moves (iCache_contract p) moved
  have one := awaits.one.moves moves
  have tracks := awaits.tracks.moves awaits.one moves
  rw [step, (iCache_contract p).redirect] at moved
  cases moved
  have none : waiting (s.log ++ [.redirected]) = none := by
    rw [waiting_append]
    rfl
  refine ⟨⟨one, tracks, ?_, by rintro ⟨⟩, fun _ => rfl⟩, none⟩
  intro some
  rw [none] at some
  cases some

/-- A flush waits for no lookup. -/
theorem Awaits.flush (p : CacheParams) (awaits : s.Awaits true) :
    Returns (step (iCache p) s .flush) fun t => t.Awaits true ∧ waiting t.log = waiting s.log := by
  intro t moved
  have moves := step_moves (iCache_contract p) moved
  have one := awaits.one.moves moves
  have tracks := awaits.tracks.moves awaits.one moves
  rw [step, (iCache_contract p).flush] at moved
  cases moved
  refine ⟨⟨one, tracks, awaits.owed, ?_, awaits.taken⟩, rfl⟩
  intro valid
  cases (awaits.taken rfl).symm.trans valid

/-! ### Ticks and answers -/

/-- A tick takes up the lookup in `idle_req`: the client is told, or the lookup has missed. -/
theorem takeUp_tick (p : CacheParams) (accepts reenters : Bool) {s : ICache.State}
    (valid : s.idleReqValid = true) (off : s.flushValid = false)
    (ready : s.state = .idle ∨ s.state = .lookup ∧ s.matched = true) :
    (ICache.tick p accepts reenters s).1.idleReqValid = false ∧
      ((ICache.tick p accepts reenters s).2 = [] ∧
          (ICache.tick p accepts reenters s).1.state = .lookup ∧
          (ICache.tick p accepts reenters s).1.matched = false ∨
        (ICache.tick p accepts reenters s).2 = told (s.idleReq.id 0) reenters) := by
  have early : s.state = .idle ∨ s.state = .lookup := ready.imp_right And.left
  have up := ICache.handleIdleReq_eq p reenters s early
  rcases ready with idle | ⟨lookup, matched⟩
  · have ran : ICache.tick p accepts reenters s =
        ({ (ICache.handleIdleReq p reenters s).1 with state := .lookup },
          (ICache.handleIdleReq p reenters s).2) := by
      simp only [ICache.tick, off, idle, valid, Bool.false_eq_true, if_false, if_true]
    rw [ran, up]
    dsimp only
    cases found : (matchWay p s.tagvs (splitAddr p s.idleReq.addr)).isSome with
    | false => exact ⟨rfl, .inl ⟨rfl, rfl, rfl⟩⟩
    | true => exact ⟨rfl, .inr rfl⟩
  · have ran : ICache.tick p accepts reenters s = ICache.handleIdleReq p reenters s := by
      simp only [ICache.tick, off, lookup, matched, valid, Bool.not_true, Bool.false_eq_true,
        if_false, if_true]
    rw [ran, up]
    dsimp only
    cases found : (matchWay p s.tagvs (splitAddr p s.idleReq.addr)).isSome with
    | false => exact ⟨rfl, .inl ⟨rfl, lookup, rfl⟩⟩
    | true => exact ⟨rfl, .inr rfl⟩

/-- A tick of a cache with nothing to take up tells the client nothing. -/
theorem ticks_of_taken {p : CacheParams} {accepts reenters : Bool} {s c : ICache.State}
    {out : List Event} (ticks : s.Ticks p accepts reenters c out)
    (taken : s.idleReqValid = false) :
    c.idleReqValid = false ∧ out.any Event.isAnswered = false ∧
      (s.state = .lookup ∧ s.matched = false ∨ s.state = .miss →
        c.state = .lookup ∧ c.matched = false ∨ c.state = .miss) ∧
      ∀ waits, out.foldl await waits = waits := by
  cases ticks with
  | flushed num on => exact ⟨taken, rfl, fun owed => owed, fun _ => rfl⟩
  | stays off resting => exact ⟨taken, rfl, fun owed => owed, fun _ => rfl⟩
  | hit req state own off ready waits => cases taken.symm.trans waits
  | missed req own off ready waits => cases taken.symm.trans waits
  | held req off state unmatched id why => exact ⟨taken, rfl, fun owed => owed, fun _ => rfl⟩
  | sent req own off state unmatched clear accepted id =>
      exact ⟨taken, rfl, fun _ => .inr rfl, fun _ => rfl⟩
  | done state valid tagvs off answered next dropped kept =>
      refine ⟨?_, rfl, ?_, fun _ => rfl⟩
      · by_contra some
        cases taken.symm.trans (dropped (Bool.eq_true_of_not_eq_false some))
      · rintro (⟨lookup, unmatched⟩ | miss)
        · rcases answered with ⟨-, matched⟩ | write | refill
          · cases matched.symm.trans unmatched
          · cases lookup.symm.trans write
          · cases lookup.symm.trans refill
        · rcases answered with ⟨lookup, -⟩ | write | refill
          · cases miss.symm.trans lookup
          · cases miss.symm.trans write
          · cases miss.symm.trans refill

/-- A tick. -/
theorem Awaits.tick (p : CacheParams) (awaits : s.Awaits rested) (accepts reenters : Bool) :
    Returns (step (iCache p) s (.tick accepts reenters)) fun t => t.Awaits true ∧ s.Learns t := by
  intro t moved
  have moves := step_moves (iCache_contract p) moved
  have one := awaits.one.moves moves
  have tracks := awaits.tracks.moves awaits.one moves
  cases moves with
  | ticked _ _ cache out ran ticks =>
  cases valid : s.cache.idleReqValid with
  | true =>
      obtain ⟨off, ready⟩ := awaits.ready valid
      obtain ⟨taken, after⟩ := takeUp_tick p accepts reenters valid off ready
      have ran : ICache.tick p accepts reenters s.cache = (cache, out) := ran
      rw [ran] at taken after
      have taken : cache.idleReqValid = false := taken
      have idle {Q : Prop} (valid : cache.idleReqValid = true) : Q := by
        cases taken.symm.trans valid
      rcases after with ⟨silent, lookup, unmatched⟩ | answered
      · cases silent
        refine ⟨⟨one, tracks, fun _ => .inr (.inl ⟨lookup, unmatched⟩), fun h => idle h,
          fun _ => taken⟩, [], rfl, .inl ⟨rfl, ?_⟩⟩
        rw [waiting_append]
        rfl
      · have answered : out = told (s.cache.idleReq.id 0) reenters := answered
        subst answered
        have none : waiting (s.log ++ told (s.cache.idleReq.id 0) reenters) = none := by
          rw [waiting_append, waiting_told]
        refine ⟨⟨one, tracks, ?_, fun h => idle h, fun _ => taken⟩, _, rfl, .inr ⟨rfl, ?_, none⟩⟩
        · intro some
          rw [none] at some
          cases some
        · rw [awaits.tracks.asked valid]
          rfl
  | false =>
      obtain ⟨idle, silent, same, log⟩ := ticks_of_taken ticks valid
      have log : waiting (s.log ++ out) = waiting s.log := by
        rw [waiting_append, log]
      refine ⟨⟨one, tracks, ?_, ?_, fun _ => idle⟩, out, rfl, .inl ⟨silent, log⟩⟩
      · intro some
        have some : (waiting (s.log ++ out)).isSome = true := some
        rw [log] at some
        rcases awaits.owed some with taken | owed
        · cases valid.symm.trans taken
        · exact .inr (same owed)
      · intro taken
        cases idle.symm.trans taken

/-- An answer of the parent. -/
theorem Awaits.answer (p : CacheParams) (awaits : s.Awaits rested) (index : Nat)
    (reenters : Bool) :
    Returns (step (iCache p) s (.answer index reenters)) fun t =>
      t.Awaits rested ∧ s.Learns t := by
  intro t moved
  have moves := step_moves (iCache_contract p) moved
  have one := awaits.one.moves moves
  have tracks := awaits.tracks.moves awaits.one moves
  cases moves with
  | answered _ _ fetch flushes cache out owed ran fills =>
  cases fills with
  | cancelled tagvs own wait installs =>
      have log : waiting (s.log ++ [.served fetch]) = waiting s.log := by
        rw [waiting_append]
        rfl
      refine ⟨⟨one, tracks, ?_, awaits.ready, awaits.taken⟩, _, rfl, .inl ⟨rfl, log⟩⟩
      intro some
      rw [log] at some
      exact awaits.owed some
  | delivered tagvs own state wait valid clear installs next why dropped =>
      have requests : s.outstanding ≠ [] := by
        rw [(awaits.one.eraseIdx owed).1]
        rintro ⟨⟩
      have miss : s.cache.state = .miss := by
        rcases awaits.one.owed requests with miss | waits
        · exact miss
        · cases clear.symm.trans waits
      obtain ⟨waits, idle⟩ := awaits.tracks.missed (.inr miss)
      have idle : valid = false := by
        by_contra some
        cases idle.symm.trans (dropped (Bool.eq_true_of_not_eq_false some))
      subst idle
      have none : waiting (s.log ++ .served fetch :: told (s.cache.lookupReq.id 0) reenters) =
          none := by
        rw [waiting_append, List.foldl_cons, waiting_told]
      refine ⟨⟨one, tracks, ?_, by rintro ⟨⟩, fun _ => rfl⟩, _, rfl, .inr ⟨rfl, ?_, none⟩⟩
      · intro some
        rw [none] at some
        cases some
      · rw [waits]
        rfl

end CacheSystem

end CPUDelaySim
