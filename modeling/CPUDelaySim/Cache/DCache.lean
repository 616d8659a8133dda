import CPUDelaySim.Cache.Cache

/-!
# The data cache

`DCache` of `cache/dcache.cpp`.  It differs from `ICache` in more than the `dirty` bits: a
store that hits spends a tick in `WRITE`, the parent's callback calls the client *before*
it leaves `MISS`, and `redirect` does not ask whether it was called from there.
-/

namespace CPUDelaySim.DCache

/-- The members only `DCache` has: `lookup_tagv`, as the index of its way. -/
structure Own where
  lookupTagv : Option Nat

abbrev State := CacheState Own

/-- The cache after `afterLoad`. -/
def afterLoad (p : CacheParams) : State :=
  .afterLoad p ⟨.snoopNone, BitVec.ofNat 32 p.lineSize, fun _ => 0, 0⟩ ⟨none⟩

/-- `DCache::lookup`. -/
def lookup (req : CacheReq) (s : State) : State × Bool :=
  if !s.flushValid && (s.state == .idle ||
      (s.state == .lookup && s.matched && s.lookupReq.req != .writeBack)) then
    ({ s with idleReq := req, idleReqValid := true }, true)
  else (s, false)

/-- `DCache::flush`; `flush_num` is an `int`. -/
def flush (p : CacheParams) (s : State) : State := flushWith p.setSize s

/-- `DCache::redirect`. -/
def redirect (s : State) : State :=
  { s with
    idleReqValid := false
    reqClearWait := if s.state == .miss || s.state == .refill then true else s.reqClearWait
    state := .idle }

/-- `DCache::handleIdleReq`. -/
def handleIdleReq (p : CacheParams) (reenters : Bool) (s : State) : State × List Event :=
  let line := splitAddr p s.idleReq.addr
  let tagv := matchWay p s.tagvs line
  let s := { s with
    lookupReq := { s.lookupReq with
      addr := s.idleReq.addr
      id := Function.update s.lookupReq.id 0 (s.idleReq.id 0)
      req := s.idleReq.req }
    idleReqValid := false
    lookupLine := line
    own := ⟨tagv⟩
    matched := tagv.isSome }
  if s.matched then notify redirect reenters s else (s, [])

/-- `lookup_tagv->dirty = true`. -/
def markDirty (s : State) : Tagvs :=
  s.tagvs.write s.lookupLine.set (s.own.lookupTagv.getD 0) fun t => { t with dirty := true }

/-- `DCache::tick`. -/
def tick (p : CacheParams) (accepts reenters : Bool) (s : State) : State × List Event :=
  if s.flushValid then
    (flushTick p (s.flushNum - 1) s, [])
  else
    match s.state with
    | .idle =>
        if s.idleReqValid then handleIdleReq p reenters { s with state := .lookup }
        else (s, [])
    | .lookup =>
        if !s.matched then
          if !s.reqClearWait then
            if accepts then s.send else (s.refused, [])
          else (s, [])
        -- A store that hits takes one more tick.
        else if s.lookupReq.req == .writeBack then
          ({ s with state := .write, tagvs := markDirty s }, [])
        else if s.idleReqValid then handleIdleReq p reenters s
        else ({ s with state := .idle }, [])
    | .write => ({ s with state := .idle }, [])
    | .miss => (s, [])
    -- What waits in `idle_req` is dropped.
    | .refill => ({ s with state := .idle, idleReqValid := false }, [])

/-- The callback `DCache::afterLoad` registers with the parent. -/
def callback (reenters : Bool) (s : State) : State × List Event :=
  let dirty := s.lookupReq.req == .writeBack
  let s := { s with
    tagvs := s.tagvs.write s.lookupLine.set s.replaceWay fun t =>
      { t.fill s.lookupLine.tag with dirty := dirty } }
  -- A cancelled request leaves its line, but the client is not told.
  if s.reqClearWait then ({ s with reqClearWait := false }, [])
  else
    let (s, out) := notify redirect reenters s
    ({ s with state := .refill }, out)

end CPUDelaySim.DCache

namespace CPUDelaySim

/-- `DCache`, as its callers see it. -/
def dCache (p : CacheParams) : Cache DCache.Own where
  lookup := DCache.lookup
  tick := DCache.tick p
  flush := DCache.flush p
  redirect := DCache.redirect
  callback := DCache.callback

end CPUDelaySim
