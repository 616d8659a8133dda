import CPUDelaySim.Cache.Cache

/-!
# The instruction cache

`ICache` of `cache/icache.cpp`.
-/

namespace CPUDelaySim.ICache

/-- The members only `ICache` has.  `req_parent` and `lookup_valid` are read by nothing. -/
structure Own where
  currentId : BitVec 16
  inCallback : Bool

abbrev State := CacheState Own

/-- The cache after `afterLoad`. -/
def afterLoad (p : CacheParams) : State :=
  .afterLoad p ⟨.readShared, BitVec.ofNat 32 p.lineSize, fun _ => 0, 0⟩ ⟨0, false⟩

/-- `ICache::lookup`. -/
def lookup (req : CacheReq) (s : State) : State × Bool :=
  if !s.flushValid && (s.state == .idle || s.state == .lookup && s.matched) then
    ({ s with idleReq := req, idleReqValid := true }, true)
  else (s, false)

/-- `ICache::flush`; `flush_num` is a `uint16_t`. -/
def flush (p : CacheParams) (s : State) : State := flushWith (p.setSize % 65536) s

/-- `ICache::redirect`. -/
def redirect (s : State) : State :=
  { s with
    idleReqValid := false
    reqClearWait :=
      if s.state == .miss || s.state == .refill && !s.own.inCallback then true else s.reqClearWait
    state := .idle }

/-- `ICache::handleIdleReq`. -/
def handleIdleReq (p : CacheParams) (reenters : Bool) (s : State) : State × List Event :=
  let line := splitAddr p s.idleReq.addr
  let s := { s with
    lookupReq := { s.lookupReq with
      addr := s.idleReq.addr
      id := Function.update s.lookupReq.id 0 (s.idleReq.id 0) }
    idleReqValid := false
    lookupLine := line
    matched := (matchWay p s.tagvs line).isSome }
  if s.matched then notify redirect reenters s else (s, [])

/-- `ICache::tick`. -/
def tick (p : CacheParams) (accepts reenters : Bool) (s : State) : State × List Event :=
  if s.flushValid then
    (flushTick p ((s.flushNum - 1) % 65536) s, [])
  else
    match s.state with
    | .idle =>
        if s.idleReqValid then
          let (s, out) := handleIdleReq p reenters s
          ({ s with state := .lookup }, out)
        else (s, [])
    | .lookup =>
        if !s.matched then
          let s := { s with
            lookupReq := { s.lookupReq with
              id := Function.update s.lookupReq.id 1 s.own.currentId } }
          if !s.reqClearWait then
            if accepts then
              -- `current_id` moves on only when the parent takes the request.
              ({ s with own := { s.own with currentId := s.own.currentId + 1 } }).send
            else (s.refused, [])
          else (s, [])
        else if s.idleReqValid then handleIdleReq p reenters s
        else ({ s with state := .idle }, [])
    -- What waits in `idle_req` is dropped.
    | .refill => ({ s with state := .idle, idleReqValid := false }, [])
    | .miss | .write => (s, [])

/-- The callback `ICache::afterLoad` registers with the parent. -/
def callback (reenters : Bool) (s : State) : State × List Event :=
  let s := { s with
    own := { s.own with inCallback := true }
    -- The line is written also when the request was cancelled.
    tagvs := s.tagvs.write s.lookupLine.set s.replaceWay (.fill s.lookupLine.tag) }
  let (s, out) :=
    if s.reqClearWait then ({ s with reqClearWait := false }, [])
    else notify redirect reenters { s with state := .refill }
  ({ s with own := { s.own with inCallback := false } }, out)

end CPUDelaySim.ICache

namespace CPUDelaySim

/-- `ICache`, as its callers see it. -/
def iCache (p : CacheParams) : Cache ICache.Own where
  lookup := ICache.lookup
  tick := ICache.tick p
  flush := ICache.flush p
  redirect := ICache.redirect
  callback := ICache.callback

end CPUDelaySim
