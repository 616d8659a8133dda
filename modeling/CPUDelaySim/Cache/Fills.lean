import CPUDelaySim.Cache.System

/-!
# What a fill installs

The parent's callback writes `lookup_tag` into way `replace_way` of set `lookup_set`, as
they are when the answer comes.  `redirect` lets the next lookup start while the request is
still out, and taking it up overwrites `lookup_set` and `lookup_tag`; then the answer
installs a line that was never fetched, and when the new lookup is sent after all, a second
copy of it.  As long as no lookup is taken up in that time the fill is right.

A second way to go wrong needs no redirect.  `Memory::lookup` cuts the address in place, so
a request it refused is sent again for the cut address, and the answer installs the line of
the full one.

`InFlight` is the invariant: while a request is out, `lookup_tag`, `lookup_set` and `replace_way`
are those it was made with, and no way holds its line.  So the line installed is the line fetched
(`fills_installs`), and there is one copy of it.  `Undisturbed` is the condition on a step that
keeps this.

The condition is enough and not claimed to be needed: a lookup that is taken up while a request is
out does no harm if it happens to be for the same line.
-/

namespace CPUDelaySim

variable {O : Type}

/-- No way below `p.way` holds the line. -/
def Tagvs.Absent (p : CacheParams) (tagvs : Tagvs) (line : Line) : Prop :=
  ∀ w < p.way, ¬ tagvs.Holds line w

namespace CacheSystem

/-- No line is in two ways, and every line a lookup would hit was fetched. -/
structure Faithful (p : CacheParams) (s : CacheSystem O) : Prop where
  unique : ∀ line w w', w < p.way → w' < p.way →
    s.cache.tagvs.Holds line w → s.cache.tagvs.Holds line w' → w = w'
  served : ∀ addr, (matchWay p s.cache.tagvs (splitAddr p addr)).isSome = true →
    ∃ fetch, .served fetch ∈ s.log ∧ splitAddr p fetch.addr = splitAddr p addr

/-- The answer makes exactly the line of the request valid, in the way chosen for it. -/
structure FillsFetch (p : CacheParams) (s : CacheSystem O) (fetch : Fetch)
    (s' : CacheSystem O) : Prop where
  inside : (splitAddr p fetch.addr).set < p.setSize ∧ fetch.way < p.way
  holds : ∀ line w, s'.cache.tagvs.Holds line w ↔
    line = splitAddr p fetch.addr ∧ w = fetch.way ∨
      s.cache.tagvs.Holds line w ∧ ¬ (line.set = (splitAddr p fetch.addr).set ∧ w = fetch.way)

/-- What a cache must get right over a run. -/
structure InstallsFetched (p : CacheParams) (c : Cache O) (start : CacheSystem O)
    (steps : List CacheStep) : Prop where
  faithful : ∀ before, before <+: steps → Returns (runSteps (step c) start before) (Faithful p)
  fills : ∀ t index reenters fetch flushes, Visits (step c) start steps t (.answer index reenters) →
    t.outstanding[index]? = some (fetch, flushes) →
    Returns (step c t (.answer index reenters)) (t.FillsFetch p fetch)

/-- The tick takes a lookup up. -/
def TakesUp (s : CacheState O) : Prop :=
  s.flushValid = false ∧ s.idleReqValid = true ∧
    (s.state = .idle ∨ s.state = .lookup ∧ s.matched = true)

/-- The tick sends a miss, if the parent accepts it. -/
def Sends (s : CacheState O) : Prop :=
  s.flushValid = false ∧ s.state = .lookup ∧ s.matched = false ∧ s.reqClearWait = false

/-- A step that leaves the line of a request alone: a lookup is taken up only when no request
is out, and the parent refuses no address it would cut. -/
def Undisturbed (s : CacheSystem O) : CacheStep → Prop
  | .tick accepts _ =>
      (TakesUp s.cache → s.outstanding = []) ∧
        (Sends s.cache → accepts = false → s.cache.lookupReq.addr.toNat < 2 ^ 40)
  | _ => True

/-- The cut keeps an address of at most 40 bits. -/
theorem cutAddr_eq {addr : Word} (small : addr.toNat < 2 ^ 40) : cutAddr addr = addr := by
  apply BitVec.eq_of_toNat_eq
  have mask : (0xffffffffff : Word).toNat = 2 ^ 40 - 1 := rfl
  rw [cutAddr, BitVec.toNat_and, mask, Nat.and_two_pow_sub_one_eq_mod]
  exact Nat.mod_eq_of_lt small

/-- The lookup that misses, and the request that is out, are for `lookupLine`. -/
structure InFlight (p : CacheParams) (s : CacheSystem O) : Prop where
  one : s.OneRequest
  unique : ∀ line w w', w < p.way → w' < p.way →
    s.cache.tagvs.Holds line w → s.cache.tagvs.Holds line w' → w = w'
  served : ∀ line w, s.cache.tagvs.Holds line w →
    ∃ fetch, .served fetch ∈ s.log ∧ splitAddr p fetch.addr = line
  ways : s.cache.lru.Complete p
  out : ∀ fetch flushes, (fetch, flushes) ∈ s.outstanding →
    splitAddr p fetch.addr = s.cache.lookupLine ∧ fetch.way = s.cache.replaceWay ∧
      fetch.way < p.way ∧ s.cache.tagvs.Absent p s.cache.lookupLine
  looking : s.cache.state = .lookup → s.cache.matched = false →
    s.outstanding = [] ∧ splitAddr p s.cache.lookupReq.addr = s.cache.lookupLine ∧
      s.cache.tagvs.Absent p s.cache.lookupLine

/-- At first no fetch is under way. -/
theorem start_inFlight (p : CacheParams) (req : CacheReq) (own : O) :
    (start (.afterLoad p req own)).InFlight p where
  one := start_oneRequest p req own
  unique := by
    rintro line w w' - - ⟨valid, -⟩
    cases valid
  served := by
    rintro line w ⟨valid, -⟩
    cases valid
  ways := LruList.setParams_complete p
  out := nofun
  looking := nofun

/-- The lines of the array are lines that have been fetched, and none is there twice. -/
theorem InFlight.faithful {p : CacheParams} {s : CacheSystem O} (inv : s.InFlight p) :
    s.Faithful p where
  unique := inv.unique
  served := by
    intro addr found
    obtain ⟨w, way⟩ := Option.isSome_iff_exists.1 found
    exact inv.served _ w (matchWay_holds way).2

/-- What an installed line leaves in the array. -/
theorem holds_of_installs {s : CacheState O} {tagvs : Tagvs} (installs : s.Installs tagvs)
    (line : Line) (w : Nat) :
    tagvs.Holds line w ↔ line = s.lookupLine ∧ w = s.replaceWay ∨
      s.tagvs.Holds line w ∧ ¬ (line.set = s.lookupLine.set ∧ w = s.replaceWay) := by
  obtain ⟨f, fills, rfl⟩ := installs
  by_cases here : line.set = s.lookupLine.set ∧ w = s.replaceWay
  · obtain ⟨set, rfl⟩ := here
    have same : line = s.lookupLine ↔ s.lookupLine.tag = line.tag := by
      constructor
      · rintro rfl
        rfl
      · intro tag
        exact Line.ext set tag.symm
    simp [Tagvs.Holds, Tagvs.write, set, fills, same]
  · rw [Tagvs.holds_write_of_ne here]
    constructor
    · exact fun holds => .inr ⟨holds, here⟩
    · rintro (⟨rfl, rfl⟩ | ⟨holds, -⟩)
      · exact absurd ⟨rfl, rfl⟩ here
      · exact holds

/-- A line stays absent while lines are only cleared. -/
theorem absent_mono {p : CacheParams} {tagvs tagvs' : Tagvs} {line : Line}
    (absent : tagvs.Absent p line)
    (less : ∀ line w, tagvs'.Holds line w → tagvs.Holds line w) : tagvs'.Absent p line :=
  fun w bound holds => absent w bound (less line w holds)

/-- A tick that does not disturb a fetch keeps its line and its way. Only a miss begins a new
one. -/
theorem InFlight.ticks {p : CacheParams} {accepts reenters : Bool} {s : CacheSystem O}
    {cache : CacheState O} {out : List Event} (inv : s.InFlight p)
    (undisturbed : s.Undisturbed (.tick accepts reenters))
    (ticks : s.cache.Ticks p accepts reenters cache out)
    (one : OneRequest { s with
      cache := cache
      outstanding := s.outstanding ++ out.filterMap (fetches s.flushes)
      log := s.log ++ out }) :
    InFlight p { s with
      cache := cache
      outstanding := s.outstanding ++ out.filterMap (fetches s.flushes)
      log := s.log ++ out } := by
  have served (less : ∀ line w, cache.tagvs.Holds line w → s.cache.tagvs.Holds line w) (line : Line)
      (w : Nat) (holds : cache.tagvs.Holds line w) :
      ∃ fetch, .served fetch ∈ s.log ++ out ∧ splitAddr p fetch.addr = line := by
    obtain ⟨fetch, answered, same⟩ := inv.served line w (less line w holds)
    exact ⟨fetch, List.mem_append_left out answered, same⟩
  cases ticks with
  | flushed num on =>
      -- A flush takes lines away, so what was absent stays absent.
      have less (line : Line) (w : Nat)
        (holds : (s.cache.tagvs.clearSet s.cache.flushSet).Holds line w) :
          s.cache.tagvs.Holds line w := ((Tagvs.holds_clearSet ..).1 holds).2
      refine ⟨one, ?_, served less, inv.ways, ?_, ?_⟩
      · intro line w w' low low' first second
        exact inv.unique line w w' low low' (less _ _ first) (less _ _ second)
      · intro fetch flushes owed
        obtain ⟨same, way, bound, absent⟩ := inv.out fetch flushes (by simpa using owed)
        exact ⟨same, way, bound, absent_mono absent less⟩
      · intro state unmatched
        obtain ⟨none, same, absent⟩ := inv.looking state unmatched
        exact ⟨by simpa using none, same, absent_mono absent less⟩
  | stays off resting =>
      rw [List.filterMap_nil, List.append_nil, List.append_nil]
      exact inv
  | hit req state own off ready waiting id found next =>
      have none : s.outstanding = [] := undisturbed.1 ⟨off, waiting, ready⟩
      refine ⟨one, inv.unique, served fun _ _ h => h, inv.ways, ?_, nofun⟩
      intro fetch flushes owed
      simp [none] at owed
  | missed req own off ready waiting id addr absent =>
      have none : s.outstanding = [] := undisturbed.1 ⟨off, waiting, ready⟩
      refine ⟨one, inv.unique, served fun _ _ h => h, inv.ways, ?_, fun _ _ => ⟨?_, ?_, ?_⟩⟩
      · intro fetch flushes owed
        simp [none] at owed
      · simp [none]
      · -- A lookup that took the place of the one looked up is cut to the same line.
        dsimp only
        rw [addr]
      · exact (matchWay_eq_none ..).1 absent
  | held req off state unmatched id why =>
      refine ⟨one, inv.unique, served fun _ _ h => h, inv.ways, ?_, fun _ _ => ?_⟩
      · intro fetch flushes owed
        exact inv.out fetch flushes (by simpa using owed)
      · obtain ⟨none, same, absent⟩ := inv.looking state unmatched
        refine ⟨by simpa using none, ?_, absent⟩
        rw [← same]
        rcases why with ⟨-, addr⟩ | ⟨clear, refused, addr⟩
        · dsimp only
          rw [addr]
        · have small := undisturbed.2 ⟨off, state, unmatched, clear⟩ refused
          dsimp only
          rw [addr, cutAddr_eq small]
  | sent req own off state unmatched clear taken id =>
      obtain ⟨none, same, absent⟩ := inv.looking state unmatched
      refine ⟨one, inv.unique, served fun _ _ h => h, LruList.get_complete inv.ways _, ?_, nofun⟩
      intro fetch flushes owed
      -- The request that is sent is the only one there is, so its way is the one just chosen.
      have this : fetch = ⟨s.cache.lookupReq.addr, (s.cache.lru.get s.cache.lookupLine.set).1⟩ := by
        simp [none, fetches] at owed
        exact owed.1
      subst this
      exact ⟨same, rfl, LruList.get_lt inv.ways _, absent⟩
  | done state valid tagvs off answered next dropped kept =>
      have less (line : Line) (w : Nat) : tagvs.Holds line w → s.cache.tagvs.Holds line w :=
        (kept line w).1
      refine ⟨one, ?_, served less, inv.ways, ?_, ?_⟩
      · intro line w w' low low' first second
        exact inv.unique line w w' low low' (less _ _ first) (less _ _ second)
      · intro fetch flushes owed
        obtain ⟨same, way, bound, absent⟩ := inv.out fetch flushes (by simpa using owed)
        exact ⟨same, way, bound, absent_mono absent less⟩
      · rcases next with rfl | rfl <;> nofun

variable {p : CacheParams} {c : Cache O} {inCallback : O → Bool} {strays : Bool}
  {wrap : Int → Int}

/-- The callback installs what `lookupLine` and `replaceWay` say. -/
theorem fills_installs {reenters : Bool} {s s' : CacheState O} {out : List Event}
    (fills : s.Fills strays reenters s' out) : s.Installs s'.tagvs := by
  cases fills with
  | cancelled tagvs own wait installs => exact installs
  | delivered tagvs own state flag valid clear installs next why dropped => exact installs

/-- An answer installs the line of its fetch in the way that was chosen for it, and no other. -/
theorem InFlight.fillsFetch {s s' : CacheSystem O} {index : Nat} {reenters : Bool}
    {fetch : Fetch} {flushes : Nat} (inv : s.InFlight p)
    (owed : s.outstanding[index]? = some (fetch, flushes))
    (moved : s.Moves p c inCallback strays (.answer index reenters) s') :
    s.FillsFetch p fetch s' := by
  obtain ⟨same, way, bound, absent⟩ := inv.out fetch flushes (List.mem_of_getElem? owed)
  cases moved with
  | answered _ _ fetch' flushes' cache out owed' ran fills =>
      refine ⟨⟨splitAddr_set_lt .., bound⟩, ?_⟩
      rw [same, way]
      exact holds_of_installs (fills_installs fills)

/-- Every step that does not disturb a fetch keeps the invariant. -/
theorem InFlight.moves {s s' : CacheSystem O} {j : CacheStep} (inv : s.InFlight p)
    (undisturbed : s.Undisturbed j) (moved : s.Moves p c inCallback strays j s') :
    s'.InFlight p := by
  have one := inv.one.moves moved
  cases moved with
  | refused req => exact inv
  | accepted req off ready =>
      refine ⟨one, inv.unique, ?_, inv.ways, inv.out, inv.looking⟩
      intro line w holds
      obtain ⟨fetch, answered, same⟩ := inv.served line w holds
      exact ⟨fetch, List.mem_append_left _ answered, same⟩
  | flushed num ran => exact ⟨one, inv.unique, inv.served, inv.ways, inv.out, inv.looking⟩
  | redirected =>
      refine ⟨one, inv.unique, ?_, inv.ways, inv.out, nofun⟩
      intro line w holds
      obtain ⟨fetch, answered, same⟩ := inv.served line w holds
      exact ⟨fetch, List.mem_append_left _ answered, same⟩
  | ticked accepts reenters cache out ran ticks => exact inv.ticks undisturbed ticks one
  | answered index reenters fetch flushes cache out owed ran fills =>
      obtain ⟨alone, none⟩ := inv.one.eraseIdx owed
      have member : (fetch, flushes) ∈ s.outstanding := List.mem_of_getElem? owed
      obtain ⟨same, way, bound, absent⟩ := inv.out fetch flushes member
      have holds := holds_of_installs (fills_installs fills)
      have lru : cache.lru = s.cache.lru := by cases fills <;> rfl
      refine ⟨one, ?_, ?_, ?_, ?_, ?_⟩
      · intro line w w' low low' first second
        -- Either line may be the one that was filled; its tag was absent before.
        rcases (holds line w).1 first with ⟨rfl, rfl⟩ | ⟨old, other⟩ <;>
          rcases (holds _ w').1 second with ⟨new, rfl⟩ | ⟨old', other'⟩
        · rfl
        · exact absurd old' (absent w' low')
        · rw [new] at old
          exact absurd old (absent w low)
        · exact inv.unique line w w' low low' old old'
      · intro line w held
        rcases (holds line w).1 held with ⟨rfl, -⟩ | ⟨old, -⟩
        · exact ⟨fetch, by simp, same⟩
        · obtain ⟨fetch', answered, same'⟩ := inv.served line w old
          exact ⟨fetch', List.mem_append_left _ answered, same'⟩
      · dsimp only
        rw [lru]
        exact inv.ways
      · intro fetch' flushes' owed'
        dsimp only at owed'
        rw [none] at owed'
        cases owed'
      · intro state unmatched
        cases fills with
        | cancelled tagvs own wait installs =>
            have empty := (inv.looking state unmatched).1
            rw [alone] at empty
            cases empty
        | delivered tagvs own state' flag valid clear installs next why dropped =>
            rcases next with rfl | rfl <;> cases state

/-- A run that leaves the line of every request alone installs what was fetched. -/
theorem contract_installsFetched (contract : c.Contract p inCallback strays wrap)
    (req : CacheReq) (own : O) (steps : List CacheStep)
    (undisturbed : ∀ t j, Visits (step c) (start (.afterLoad p req own)) steps t j →
      t.Undisturbed j) :
    InstallsFetched p c (start (.afterLoad p req own)) steps := by
  have kept (t : CacheSystem O) (j : CacheStep)
      (visit : Visits (step c) (start (.afterLoad p req own)) steps t j) (inv : t.InFlight p) :
      Returns (step c t j) (InFlight p) :=
    fun t' moved => inv.moves (undisturbed t j visit) (step_moves contract moved)
  refine ⟨?_, ?_⟩
  · intro before part
    exact (runSteps_prefix_invariant (start_inFlight p req own) kept part).mono
      fun s inv => inv.faithful
  · intro t index reenters fetch flushes visit owed t' moved
    exact (visit.invariant (start_inFlight p req own) kept).fillsFetch owed
      (step_moves contract moved)

/-- Both caches install exactly what was fetched, as long as no lookup is taken up while a
request is out, and the parent refuses no address it would cut. In every such run an answer
fills the line that was sent to the parent, in the way chosen for it, no set holds a tag twice,
and only fetched lines hit. The invariant `InFlight` ties the request that is out to
`lookup_req`, which the fill reads. -/
theorem installsFetched_of_undisturbed (p : CacheParams) (steps : List CacheStep) :
    ((∀ t j, Visits (step (iCache p)) (start (ICache.afterLoad p)) steps t j →
        t.Undisturbed j) →
      InstallsFetched p (iCache p) (start (ICache.afterLoad p)) steps) ∧
    ((∀ t j, Visits (step (dCache p)) (start (DCache.afterLoad p)) steps t j →
        t.Undisturbed j) →
      InstallsFetched p (dCache p) (start (DCache.afterLoad p)) steps) :=
  ⟨contract_installsFetched (iCache_contract p) _ _ steps,
    contract_installsFetched (dCache_contract p) _ _ steps⟩

/-- A miss that nothing disturbs. -/
def missSteps : List CacheStep :=
  [.lookup ⟨.readShared, 4, fun _ => 0, 0x80000000⟩, .tick true false, .tick true false,
    .answer 0 false]

instance (s : CacheState O) : Decidable (TakesUp s) := by
  unfold TakesUp
  infer_instance

instance (s : CacheState O) : Decidable (Sends s) := by
  unfold Sends
  infer_instance

instance (s : CacheSystem O) (j : CacheStep) : Decidable (s.Undisturbed j) := by
  cases j <;> unfold Undisturbed <;> infer_instance

/-- A run with a miss, of both caches. -/
theorem installsFetched_of_undisturbed_missSteps :
    InstallsFetched .shipped (iCache .shipped) (start (ICache.afterLoad .shipped)) missSteps ∧
      InstallsFetched .shipped (dCache .shipped) (start (DCache.afterLoad .shipped)) missSteps := by
  refine ⟨(installsFetched_of_undisturbed .shipped missSteps).1 ?_,
    (installsFetched_of_undisturbed .shipped missSteps).2 ?_⟩ <;>
  · rw [← trail_iff]
    decide +kernel

/-- A line in two ways was not installed once. -/
theorem not_installsFetched_of_twice {p : CacheParams} {c : Cache O} {start : CacheSystem O}
    {steps : List CacheStep} (line : Line) (ways : 1 < p.way)
    (twice : (runSteps (step c) start steps).toOption.map
        (fun s => (decide (s.cache.tagvs.Holds line 0), decide (s.cache.tagvs.Holds line 1))) =
      some (true, true)) :
    ¬ InstallsFetched p c start steps := by
  intro right
  obtain ⟨s, ran, held⟩ := exists_ok_of_toOption twice
  have first : s.cache.tagvs.Holds line 0 := of_decide_eq_true (congrArg Prod.fst held)
  have second : s.cache.tagvs.Holds line 1 := of_decide_eq_true (congrArg Prod.snd held)
  have faithful := right.faithful steps (List.prefix_refl _) s ran
  exact Nat.zero_ne_one (faithful.unique line 0 1 p.way_pos ways first second)

/-- A miss of `0x80000000` is cancelled while its request is out, and `0x80001000`, another
line of the same set, is looked up before the answer. -/
def crossedSteps : List CacheStep :=
  [.lookup ⟨.readShared, 4, fun _ => 0, 0x80000000⟩, .tick true false, .tick true false,
    .redirect, .lookup ⟨.readShared, 4, fun _ => 0, 0x80001000⟩, .tick true false,
    .answer 0 false, .tick true false, .answer 0 false]

/-- The first answer installs the second line, and its own answer installs it again. -/
theorem not_installsFetched_crossedSteps :
    ¬ InstallsFetched .shipped (iCache .shipped) (start (ICache.afterLoad .shipped))
        crossedSteps ∧
      ¬ InstallsFetched .shipped (dCache .shipped) (start (DCache.afterLoad .shipped))
        crossedSteps := by
  refine ⟨?_, ?_⟩ <;>
  · refine not_installsFetched_of_twice (splitAddr .shipped 0x80001000) (by decide) ?_
    decide +kernel

end CacheSystem

end CPUDelaySim
