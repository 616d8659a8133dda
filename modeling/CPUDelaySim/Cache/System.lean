import CPUDelaySim.Cache.Contract
import CPUDelaySim.Common.Outcome

/-!
# A cache between its client and its parent

The client calls `lookup`, `flush` and `redirect`, the simulator calls `tick`, and the parent
answers the requests it has accepted, in any order and after any delay.  A run is any
interleaving of these steps; `EMU::run` makes some of them.

A request is kept with the event that made it, so that an answer names what it answers, and the
parent may answer in any order.  `Moves` is the inversion of a step for any cache with the
contract; `OneRequest` is the first invariant read off it and the one most others begin from.
-/

namespace CPUDelaySim

variable {O : Type}

/-- A cache with the requests its parent has accepted and not answered, and what has been
said.  A request is kept with the number of `flush` calls before it, and `filledBy` has that
number for the request that filled each way last. -/
structure CacheSystem (O : Type) where
  cache : CacheState O
  outstanding : List (Fetch × Nat)
  flushes : Nat
  filledBy : Nat → Nat → Nat
  log : List Event

/-- One step of a run.  The parent answers the request at `index` of those outstanding. -/
inductive CacheStep
  | lookup (req : CacheReq)
  | tick (accepts reenters : Bool)
  | flush
  | redirect
  | answer (index : Nat) (reenters : Bool)

/-- The parent cannot answer what it was not asked. -/
inductive Unasked
  | unasked

namespace CacheSystem

/-- Nothing has happened yet. -/
def start (cache : CacheState O) : CacheSystem O := ⟨cache, [], 0, fun _ _ => 0, []⟩

/-- The requests an event adds to those outstanding. -/
def fetches (flushes : Nat) : Event → Option (Fetch × Nat)
  | .requested fetch => some (fetch, flushes)
  | _ => none

/-- The effect of a step. -/
def step (c : Cache O) (s : CacheSystem O) : CacheStep → Except Unasked (CacheSystem O)
  | .lookup req =>
      let (cache, taken) := c.lookup req s.cache
      .ok { s with cache := cache, log := s.log ++ if taken then [.accepted (req.id 0)] else [] }
  | .tick accepts reenters =>
      let (cache, out) := c.tick accepts reenters s.cache
      .ok { s with
        cache := cache
        outstanding := s.outstanding ++ out.filterMap (fetches s.flushes)
        log := s.log ++ out }
  | .flush => .ok { s with cache := c.flush s.cache, flushes := s.flushes + 1 }
  | .redirect => .ok { s with cache := c.redirect s.cache, log := s.log ++ [.redirected] }
  | .answer index reenters =>
      match s.outstanding[index]? with
      | none => .error .unasked
      | some (fetch, flushes) =>
          let (cache, out) := c.callback reenters s.cache
          let set := s.cache.lookupLine.set
          .ok { s with
            cache := cache
            outstanding := s.outstanding.eraseIdx index
            filledBy := fun i w =>
              if i = set ∧ w = s.cache.replaceWay then flushes else s.filledBy i w
            log := s.log ++ .served fetch :: out }

/-- What a step of a cache that keeps the contract can do. -/
inductive Moves (p : CacheParams) (c : Cache O) (inCallback : O → Bool) (strays : Bool)
    (s : CacheSystem O) : CacheStep → CacheSystem O → Prop
  | refused (req : CacheReq) : Moves p c inCallback strays s (.lookup req) s
  | accepted (req : CacheReq) (off : s.cache.flushValid = false)
      (ready : s.cache.state = .idle ∨ s.cache.state = .lookup ∧ s.cache.matched = true) :
      Moves p c inCallback strays s (.lookup req)
        { s with
          cache := { s.cache with idleReq := req, idleReqValid := true }
          log := s.log ++ [.accepted (req.id 0)] }
  | ticked (accepts reenters : Bool) (cache : CacheState O) (out : List Event)
      (ran : c.tick accepts reenters s.cache = (cache, out))
      (ticks : s.cache.Ticks p accepts reenters cache out) :
      Moves p c inCallback strays s (.tick accepts reenters)
        { s with
          cache := cache
          outstanding := s.outstanding ++ out.filterMap (fetches s.flushes)
          log := s.log ++ out }
  | flushed (num : Int) (ran : c.flush s.cache = flushWith num s.cache) :
      Moves p c inCallback strays s .flush
        { s with cache := flushWith num s.cache, flushes := s.flushes + 1 }
  | redirected :
      Moves p c inCallback strays s .redirect
        { s with
          cache := { s.cache with
            idleReqValid := false, reqClearWait := s.cache.cancels inCallback, state := .idle }
          log := s.log ++ [.redirected] }
  | answered (index : Nat) (reenters : Bool) (fetch : Fetch) (flushes : Nat)
      (cache : CacheState O) (out : List Event)
      (owed : s.outstanding[index]? = some (fetch, flushes))
      (ran : c.callback reenters s.cache = (cache, out))
      (fills : s.cache.Fills strays reenters cache out) :
      Moves p c inCallback strays s (.answer index reenters)
        { s with
          cache := cache
          outstanding := s.outstanding.eraseIdx index
          filledBy := fun i w =>
            if i = s.cache.lookupLine.set ∧ w = s.cache.replaceWay then flushes else s.filledBy i w
          log := s.log ++ .served fetch :: out }

/-- What a step of the cache system does, by the contract of its cache. -/
theorem step_moves {p : CacheParams} {c : Cache O} {inCallback : O → Bool} {strays : Bool}
    {wrap : Int → Int} (contract : c.Contract p inCallback strays wrap) {s s' : CacheSystem O}
    {j : CacheStep}
    (moved : step c s j = .ok s') : s.Moves p c inCallback strays j s' := by
  cases j with
  | lookup req =>
      rcases contract.lookup req s.cache with refused | ⟨off, ready, taken⟩
      · rw [step, refused] at moved
        cases moved
        simpa using Moves.refused (c := c) req
      · rw [step, taken] at moved
        cases moved
        exact .accepted req off ready
  | tick accepts reenters =>
      have ticks := contract.tick accepts reenters s.cache
      rw [step] at moved
      cases moved
      exact .ticked accepts reenters _ _ rfl ticks
  | flush =>
      have ran := contract.flush s.cache
      rw [step, ran] at moved
      cases moved
      exact .flushed _ ran
  | redirect =>
      rw [step, contract.redirect] at moved
      cases moved
      exact .redirected
  | answer index reenters =>
      have fills := contract.callback reenters s.cache
      rw [step] at moved
      cases owed : s.outstanding[index]? with
      | none =>
          rw [owed] at moved
          cases moved
      | some pending =>
          rw [owed] at moved
          cases moved
          exact .answered index reenters _ _ _ _ owed rfl fills

/-! ### Requests and the state machine -/

/-- Telling an answer fetches nothing. -/
@[simp] theorem told_fetches (id : BitVec 16) (reenters : Bool) (flushes : Nat) :
    (told id reenters).filterMap (fetches flushes) = [] := by
  cases reenters <;> rfl

/-- A tick leaves `req_clear_wait` alone.  It sends at most one request, and then waits. -/
theorem ticks_requests {p : CacheParams} {accepts reenters : Bool} {s s' : CacheState O}
    {out : List Event} (ticks : s.Ticks p accepts reenters s' out) (flushes : Nat) :
    s'.reqClearWait = s.reqClearWait ∧
      ((s.state = .lookup ∧ s.reqClearWait = false ∧ s'.state = .miss ∧
          ∃ fetch, out = [.requested fetch]) ∨
        out.filterMap (fetches flushes) = [] ∧
          (s'.state = s.state ∨ s.state ≠ .miss ∧ s'.state ≠ .miss ∧ s'.state ≠ .refill)) := by
  cases ticks with
  | flushed num on => exact ⟨rfl, .inr ⟨rfl, .inl rfl⟩⟩
  | stays off resting => exact ⟨rfl, .inr ⟨rfl, .inl rfl⟩⟩
  | hit req state own off ready waiting id found next =>
      refine ⟨rfl, .inr ⟨told_fetches .., .inr ⟨?_, ?_, ?_⟩⟩⟩
      · rcases ready with at_ | ⟨at_, -⟩ <;> rw [at_] <;> nofun
      all_goals rcases next with rfl | rfl <;> nofun
  | missed req own off ready waiting id addr absent =>
      refine ⟨rfl, .inr ⟨rfl, .inr ⟨?_, nofun, nofun⟩⟩⟩
      rcases ready with at_ | ⟨at_, -⟩ <;> rw [at_] <;> nofun
  | held req off state unmatched id why => exact ⟨rfl, .inr ⟨rfl, .inl rfl⟩⟩
  | sent req own off state unmatched clear taken id =>
      exact ⟨rfl, .inl ⟨state, clear, rfl, _, rfl⟩⟩
  | done state valid tagvs off answered next dropped kept =>
      refine ⟨rfl, .inr ⟨rfl, .inr ⟨?_, ?_, ?_⟩⟩⟩
      · rcases answered with ⟨at_, -⟩ | at_ | at_ <;> rw [at_] <;> nofun
      all_goals rcases next with rfl | rfl <;> nofun

/-- The parent is asked one thing at a time, and what it owes is waited for, or was
cancelled. -/
structure OneRequest (s : CacheSystem O) : Prop where
  one : s.outstanding.length ≤ 1
  miss : s.cache.state = .miss → s.cache.reqClearWait = false
  owed : s.outstanding ≠ [] → s.cache.state = .miss ∨ s.cache.reqClearWait = true
  owing : s.cache.state = .miss → s.outstanding ≠ []
  refill : s.cache.state = .refill → s.outstanding = []

/-- At first no request is out. -/
theorem start_oneRequest (p : CacheParams) (req : CacheReq) (own : O) :
    (start (.afterLoad p req own)).OneRequest where
  one := Nat.zero_le 1
  miss := nofun
  owed := fun h => absurd rfl h
  owing := nofun
  refill := nofun

/-- The one request outstanding is the one that is answered. -/
theorem OneRequest.eraseIdx {s : CacheSystem O} (inv : s.OneRequest) {index : Nat}
    {pending : Fetch × Nat} (owed : s.outstanding[index]? = some pending) :
    s.outstanding = [pending] ∧ s.outstanding.eraseIdx index = [] := by
  have one := inv.one
  cases requests : s.outstanding with
  | nil =>
      rw [requests] at owed
      cases owed
  | cons first rest =>
      rw [requests, List.length_cons] at one
      have alone : rest = [] := List.length_eq_zero_iff.1 (by omega)
      subst alone
      rw [requests] at owed
      cases index with
      | zero =>
          cases owed
          exact ⟨rfl, rfl⟩
      | succ index => simp at owed

/-- Every step keeps one request out at most, under its own number. -/
theorem OneRequest.moves {p : CacheParams} {c : Cache O} {inCallback : O → Bool} {strays : Bool}
    {s s' : CacheSystem O} {j : CacheStep} (inv : s.OneRequest)
    (moved : s.Moves p c inCallback strays j s') : s'.OneRequest := by
  have nothing (idle : s.cache.state ≠ .miss) (clear : s.cache.reqClearWait = false) :
      s.outstanding = [] := by
    by_contra owed
    rcases inv.owed owed with miss | wait
    · exact idle miss
    · rw [clear] at wait
      cases wait
  cases moved with
  | refused req => exact inv
  | accepted req off ready => exact ⟨inv.one, inv.miss, inv.owed, inv.owing, inv.refill⟩
  | flushed num ran => exact ⟨inv.one, inv.miss, inv.owed, inv.owing, inv.refill⟩
  | redirected =>
      -- A redirect takes nothing back, so what is owed is marked as cancelled.
      refine ⟨inv.one, by rintro ⟨⟩, fun owed => .inr ?_, by rintro ⟨⟩, by rintro ⟨⟩⟩
      rcases inv.owed owed with miss | wait
      · simp [CacheState.cancels, miss]
      · simp [CacheState.cancels, wait]
  | answered index reenters fetch flushes cache out owed ran fills =>
      obtain ⟨one, none⟩ := inv.eraseIdx owed
      -- The one answer that was owed has come, and no miss is left.
      have left : cache.state ≠ .miss := by
        cases fills with
        | cancelled tagvs own wait installs =>
            intro miss
            rw [inv.miss miss] at wait
            cases wait
        | delivered tagvs own state wait valid clear installs next why dropped =>
            rcases next with rfl | rfl <;> rintro ⟨⟩
      rw [none]
      exact ⟨Nat.zero_le 1, fun h => absurd h left, fun h => absurd rfl h,
        fun h => absurd h left, fun _ => rfl⟩
  | ticked accepts reenters cache out ran ticks =>
      obtain ⟨same, ⟨lookup, clear, miss, fetch, sent⟩ | ⟨silent, still | ⟨idle, left, done⟩⟩⟩ :=
        ticks_requests ticks s.flushes
      · -- The miss sends the only request, as nothing was owed in this state.
        have none := nothing (by rw [lookup]; rintro ⟨⟩) clear
        have one : out.filterMap (fetches s.flushes) = [(fetch, s.flushes)] := by rw [sent]; rfl
        rw [none, one]
        refine ⟨Nat.le_refl 1, ?_, fun _ => .inl miss, fun _ => by rintro ⟨⟩, ?_⟩
        · intro _
          exact same.trans clear
        · intro refill
          rw [miss] at refill
          cases refill
      · rw [silent, List.append_nil]
        refine ⟨inv.one, ?_, ?_, ?_, ?_⟩ <;> dsimp only <;> rw [still] <;> try rw [same]
        · exact inv.miss
        · exact inv.owed
        · exact inv.owing
        · exact inv.refill
      · rw [silent, List.append_nil]
        refine ⟨inv.one, fun h => absurd h left, ?_, fun h => absurd h left,
          fun h => absurd h done⟩
        intro owed
        exact .inr (same.trans ((inv.owed owed).resolve_left idle))

end CacheSystem

end CPUDelaySim
