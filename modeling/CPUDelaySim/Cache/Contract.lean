import CPUDelaySim.Cache.ICache
import CPUDelaySim.Cache.DCache

/-!
# What both caches promise

`ICache` and `DCache` are two copies of one state machine that have drifted apart.  What
lookups, fills and flushes depend on is the same in both, and is stated once: a relation for
each of their functions, `Cache.Contract`.  Everything about runs is proved from it.

The relations are as weak as their users allow.  `Ticks` lists what a tick may do, and `Fills`
what the parent's callback may do, without the order in which the two classes do it.  Where they
differ in the result, the difference is a parameter of the contract: the width of `flush_num`,
how `redirect` knows that it is called from the callback, and whether it can then leave
`req_clear_wait` set.

`iCache_contract` and `dCache_contract` are the only proofs that unfold the functions of the two
classes.
-/

namespace CPUDelaySim

variable {O : Type}

/-- An answer writes the line of the lookup into the way chosen for it. -/
def CacheState.Installs (s : CacheState O) (tagvs : Tagvs) : Prop :=
  ∃ f : CacheTagv → CacheTagv,
    (∀ t, (f t).valid = true ∧ (f t).tag = s.lookupLine.tag) ∧
      tagvs = s.tagvs.write s.lookupLine.set s.replaceWay f

/-- What the client is told, and what it does about it. -/
def told (id : BitVec 16) (reenters : Bool) : List Event :=
  .answered id :: if reenters then [.redirected] else []

/-- What a tick can do. -/
inductive CacheState.Ticks (p : CacheParams) (accepts reenters : Bool) (s : CacheState O) :
    CacheState O → List Event → Prop
  /-- The flush walks on. -/
  | flushed (num : Int) (on : s.flushValid = true) :
    Ticks p accepts reenters s (flushTick p num s) []
  /-- Nothing to do, or the parent has not answered; `ICache` is never in `WRITE`. -/
  | stays (off : s.flushValid = false)
      (resting : s.state = .idle ∧ s.idleReqValid = false ∨ s.state = .miss ∨ s.state = .write) :
      Ticks p accepts reenters s s []
  /-- A lookup is taken up and hits. -/
  | hit (req : CacheReq) (state : CacheFsm) (own : O) (off : s.flushValid = false)
      (ready : s.state = .idle ∨ s.state = .lookup ∧ s.matched = true)
      (waiting : s.idleReqValid = true) (id : req.id 0 = s.idleReq.id 0)
      (found : (matchWay p s.tagvs (splitAddr p s.idleReq.addr)).isSome = true)
      (next : state = .lookup ∨ state = .idle) :
      Ticks p accepts reenters s
        { s with
          lookupReq := req, idleReqValid := false, matched := true, state := state, own := own
          lookupLine := splitAddr p s.idleReq.addr }
        (told (s.idleReq.id 0) reenters)
  /-- A lookup is taken up and misses. -/
  | missed (req : CacheReq) (own : O) (off : s.flushValid = false)
      (ready : s.state = .idle ∨ s.state = .lookup ∧ s.matched = true)
      (waiting : s.idleReqValid = true)
      (id : req.id 0 = s.idleReq.id 0) (addr : req.addr = s.idleReq.addr)
      (absent : matchWay p s.tagvs (splitAddr p s.idleReq.addr) = none) :
      Ticks p accepts reenters s
        { s with
          lookupReq := req, idleReqValid := false, matched := false, state := .lookup, own := own
          lookupLine := splitAddr p s.idleReq.addr } []
  /-- A miss is not sent: it waits for a cancelled request, or the parent refuses it. -/
  | held (req : CacheReq) (off : s.flushValid = false) (state : s.state = .lookup)
      (unmatched : s.matched = false) (id : req.id 0 = s.lookupReq.id 0)
      (why : s.reqClearWait = true ∧ req.addr = s.lookupReq.addr ∨
        s.reqClearWait = false ∧ accepts = false ∧ req.addr = cutAddr s.lookupReq.addr) :
      Ticks p accepts reenters s { s with lookupReq := req } []
  /-- A miss is sent. -/
  | sent (req : CacheReq) (own : O) (off : s.flushValid = false) (state : s.state = .lookup)
      (unmatched : s.matched = false) (clear : s.reqClearWait = false) (taken : accepts = true)
      (id : req.id 0 = s.lookupReq.id 0) :
      Ticks p accepts reenters s
        { s with
          lookupReq := req, own := own, state := .miss
          replaceWay := (s.lru.get s.lookupLine.set).1, lru := (s.lru.get s.lookupLine.set).2 }
        [.requested ⟨s.lookupReq.addr, (s.lru.get s.lookupLine.set).1⟩]
  /-- A lookup that was answered is left behind. -/
  | done (state : CacheFsm) (idleReqValid : Bool) (tagvs : Tagvs) (off : s.flushValid = false)
      (answered : s.state = .lookup ∧ s.matched = true ∨ s.state = .write ∨ s.state = .refill)
      (next : state = .idle ∨ state = .write)
      (dropped : idleReqValid = true → s.idleReqValid = true)
      (kept : ∀ line w, tagvs.Holds line w ↔ s.tagvs.Holds line w) :
      Ticks p accepts reenters s
        { s with state := state, idleReqValid := idleReqValid, tagvs := tagvs } []

/-- What the parent's callback can do.  Whether a `redirect` from inside it leaves
`req_clear_wait` set is where the caches differ: `strays`. -/
inductive CacheState.Fills (strays reenters : Bool) (s : CacheState O) :
    CacheState O → List Event → Prop
  /-- The answer of a cancelled request. -/
  | cancelled (tagvs : Tagvs) (own : O) (wait : s.reqClearWait = true)
      (installs : s.Installs tagvs) :
      Fills strays reenters s { s with tagvs := tagvs, own := own, reqClearWait := false } []
  /-- The answer of the request the client waits for. -/
  | delivered (tagvs : Tagvs) (own : O) (state : CacheFsm) (reqClearWait idleReqValid : Bool)
      (clear : s.reqClearWait = false) (installs : s.Installs tagvs)
      (next : state = .refill ∨ state = .idle)
      (wait : reqClearWait = true ↔
        strays = true ∧ reenters = true ∧ (s.state = .miss ∨ s.state = .refill))
      (dropped : idleReqValid = true → s.idleReqValid = true) :
      Fills strays reenters s
        { s with
          tagvs := tagvs, own := own, state := state, reqClearWait := reqClearWait
          idleReqValid := idleReqValid }
        (told (s.lookupReq.id 0) reenters)

/-- What `redirect` makes of `req_clear_wait`. -/
def CacheState.cancels (inCallback : O → Bool) (s : CacheState O) : Bool :=
  s.reqClearWait || s.state == .miss || s.state == .refill && !inCallback s.own

/-- The contract.  `inCallback` is false outside the functions of the cache, and `wrap` is the
width of `flush_num`. -/
structure Cache.Contract (p : CacheParams) (c : Cache O) (inCallback : O → Bool)
    (strays : Bool) (wrap : Int → Int) : Prop where
  lookup (req : CacheReq) (s : CacheState O) :
    c.lookup req s = (s, false) ∨
      s.flushValid = false ∧ (s.state = .idle ∨ s.state = .lookup ∧ s.matched = true) ∧
        c.lookup req s = ({ s with idleReq := req, idleReqValid := true }, true)
  tick (accepts reenters : Bool) (s : CacheState O) :
    s.Ticks p accepts reenters (c.tick accepts reenters s).1 (c.tick accepts reenters s).2
  flush (s : CacheState O) : c.flush s = flushWith (wrap p.setSize) s
  flushes (accepts reenters : Bool) (s : CacheState O) (on : s.flushValid = true) :
    c.tick accepts reenters s = (flushTick p (wrap (s.flushNum - 1)) s, [])
  redirect (s : CacheState O) :
    c.redirect s = { s with
      idleReqValid := false, reqClearWait := s.cancels inCallback, state := .idle }
  callback (reenters : Bool) (s : CacheState O) :
    s.Fills strays reenters (c.callback reenters s).1 (c.callback reenters s).2
  tick_inCallback (accepts reenters : Bool) (s : CacheState O) :
    inCallback (c.tick accepts reenters s).1.own = inCallback s.own
  callback_inCallback (reenters : Bool) (s : CacheState O) :
    inCallback (c.callback reenters s).1.own = false

/-! ### The two caches -/

/-- `redirect` leaves the cache idle and without a request, and an answer that it is still
waiting for is to be dropped. -/
theorem ICache.redirect_eq (s : ICache.State) :
    ICache.redirect s = { s with
      idleReqValid := false, reqClearWait := s.cancels Own.inCallback, state := .idle } := by
  rw [ICache.redirect, CacheState.cancels]
  cases s.reqClearWait <;> cases s.state <;> simp

/-- The DCache does the same, and it has no callback to be in the middle of. -/
theorem DCache.redirect_eq (s : DCache.State) :
    DCache.redirect s = { s with
      idleReqValid := false, reqClearWait := s.cancels (fun _ => false), state := .idle } := by
  rw [DCache.redirect, CacheState.cancels]
  cases s.reqClearWait <;> cases s.state <;> simp

/-- A callback that is not made in `MISS` or `REFILL` cancels nothing. -/
theorem notify_redirect {inCallback : O → Bool} {redirect : CacheState O → CacheState O}
    (redirects : ∀ s, redirect s = { s with
      idleReqValid := false, reqClearWait := s.cancels inCallback, state := .idle })
    (reenters : Bool) (s : CacheState O) (early : s.state = .idle ∨ s.state = .lookup)
    (taken : s.idleReqValid = false) :
    notify redirect reenters s =
      ({ s with state := if reenters then .idle else s.state },
        told (s.lookupReq.id 0) reenters) := by
  have clear : s.cancels inCallback = s.reqClearWait := by
    rw [CacheState.cancels]
    rcases early with at_ | at_ <;> rw [at_] <;> cases s.reqClearWait <;> rfl
  cases reenters with
  | false => rfl
  | true =>
      simp only [notify, if_true, redirects, clear, told]
      rw [← taken]

/-- Taking up a lookup in a cache that is in `state`. -/
theorem ICache.handleIdleReq_eq (p : CacheParams) (reenters : Bool) (s : ICache.State)
    (early : s.state = .idle ∨ s.state = .lookup) :
    ICache.handleIdleReq p reenters s =
      let line := splitAddr p s.idleReq.addr
      let found := (matchWay p s.tagvs line).isSome
      ({ s with
         lookupReq := { s.lookupReq with
           addr := s.idleReq.addr
           id := Function.update s.lookupReq.id 0 (s.idleReq.id 0) }
         idleReqValid := false
         lookupLine := line
         matched := found
         state := if found && reenters then .idle else s.state },
       if found then told (s.idleReq.id 0) reenters else []) := by
  cases found : (matchWay p s.tagvs (splitAddr p s.idleReq.addr)).isSome with
  | false => simp [handleIdleReq, found]
  | true =>
      simp only [handleIdleReq, found, if_true, Bool.true_and]
      refine (notify_redirect redirect_eq reenters _ ?_ rfl).trans ?_
      · exact early
      · simp

/-- The lookup of a request, its hit and its miss. -/
theorem DCache.handleIdleReq_eq (p : CacheParams) (reenters : Bool) (s : DCache.State)
    (early : s.state = .idle ∨ s.state = .lookup) :
    DCache.handleIdleReq p reenters s =
      let line := splitAddr p s.idleReq.addr
      let found := (matchWay p s.tagvs line).isSome
      ({ s with
         lookupReq := { s.lookupReq with
           addr := s.idleReq.addr
           id := Function.update s.lookupReq.id 0 (s.idleReq.id 0)
           req := s.idleReq.req }
         idleReqValid := false
         lookupLine := line
         own := ⟨matchWay p s.tagvs line⟩
         matched := found
         state := if found && reenters then .idle else s.state },
       if found then told (s.idleReq.id 0) reenters else []) := by
  cases found : (matchWay p s.tagvs (splitAddr p s.idleReq.addr)).isSome with
  | false => simp [handleIdleReq, found]
  | true =>
      simp only [handleIdleReq, found, if_true, Bool.true_and]
      refine (notify_redirect redirect_eq reenters _ ?_ rfl).trans ?_
      · exact early
      · simp

/-- Only a hit is left early, by a client that calls `redirect`. -/
theorem ICache.handleIdleReq_state (p : CacheParams) (reenters : Bool) (s : ICache.State)
    (at_ : s.state = .lookup) :
    ((ICache.handleIdleReq p reenters s).1.state = .lookup ∨
      (ICache.handleIdleReq p reenters s).1.state = .idle) ∧
    ((ICache.handleIdleReq p reenters s).1.matched = false →
      (ICache.handleIdleReq p reenters s).1.state = .lookup) := by
  rw [handleIdleReq_eq p reenters s (.inr at_)]
  dsimp only
  generalize (matchWay p s.tagvs (splitAddr p s.idleReq.addr)).isSome = found
  cases found <;> cases reenters <;> simp [at_]

/-- Taking up a lookup, as the contract has it. -/
theorem ICache.takeUp_ticks (p : CacheParams) (accepts reenters : Bool) (s : ICache.State)
    (off : s.flushValid = false) (ready : s.state = .idle ∨ s.state = .lookup ∧ s.matched = true)
    (waiting : s.idleReqValid = true) (state : CacheFsm)
    (next : state = .lookup ∨ state = .idle)
    (missed : (ICache.handleIdleReq p reenters s).1.matched = false → state = .lookup) :
    s.Ticks p accepts reenters { (ICache.handleIdleReq p reenters s).1 with state := state }
      (ICache.handleIdleReq p reenters s).2 := by
  have early : s.state = .idle ∨ s.state = .lookup := ready.imp_right And.left
  have id : Function.update s.lookupReq.id 0 (s.idleReq.id 0) 0 = s.idleReq.id 0 :=
    Function.update_self ..
  rw [handleIdleReq_eq p reenters s early] at missed ⊢
  cases found : matchWay p s.tagvs (splitAddr p s.idleReq.addr) with
  | none =>
      simp only [found, Option.isSome_none, forall_const] at missed
      subst missed
      simp only [found, Option.isSome_none]
      exact .missed _ s.own off ready waiting id rfl found
  | some way =>
      simp only [found, Option.isSome_some, if_true]
      exact .hit _ state s.own off ready waiting id (by rw [found]; rfl) next

/-- A tick of the ICache does one of the things that a cache may do. -/
theorem ICache.tick_ticks (p : CacheParams) (accepts reenters : Bool) (s : ICache.State) :
    s.Ticks p accepts reenters (ICache.tick p accepts reenters s).1
      (ICache.tick p accepts reenters s).2 := by
  obtain ⟨state, idleReq, idleReqValid, lookupReq, lookupLine, matched, replaceWay, reqClearWait,
    flushValid, flushNum, flushSet, tagvs, lru, own⟩ := s
  cases flushValid with
  | true => exact .flushed _ rfl
  | false =>
      have id : Function.update lookupReq.id 1 own.currentId 0 = lookupReq.id 0 :=
        Function.update_of_ne (by decide) ..
      cases state with
      | idle =>
          cases idleReqValid with
          | false => exact .stays rfl (.inl ⟨rfl, rfl⟩)
          | true =>
              exact takeUp_ticks p accepts reenters _ rfl (.inl rfl) rfl .lookup (.inl rfl)
                fun _ => rfl
      | lookup =>
          cases matched with
          | false =>
              cases reqClearWait with
              | true => exact .held _ rfl rfl rfl id (.inl ⟨rfl, rfl⟩)
              | false =>
                  cases accepts with
                  | true => exact .sent _ _ rfl rfl rfl rfl rfl id
                  | false => exact .held _ rfl rfl rfl id (.inr ⟨rfl, rfl, rfl⟩)
          | true =>
              cases idleReqValid with
              | false =>
                  exact .done .idle false tagvs rfl (.inl ⟨rfl, rfl⟩) (.inl rfl) nofun
                    fun _ _ => .rfl
              | true =>
                  have left := handleIdleReq_state p reenters ⟨.lookup, idleReq, true, lookupReq,
                    lookupLine, true, replaceWay, reqClearWait, false, flushNum, flushSet, tagvs,
                    lru, own⟩ rfl
                  exact takeUp_ticks p accepts reenters _ rfl (.inr ⟨rfl, rfl⟩) rfl _ left.1 left.2
      | write => exact .stays rfl (.inr (.inr rfl))
      | miss => exact .stays rfl (.inr (.inl rfl))
      | refill =>
          exact .done .idle false tagvs rfl (.inr (.inr rfl)) (.inl rfl) nofun fun _ _ => .rfl

/-- The request that waits is taken up, in either of the two states that let it. -/
theorem DCache.takeUp_ticks (p : CacheParams) (accepts reenters : Bool) (s : DCache.State)
    (off : s.flushValid = false) (ready : s.state = .idle ∨ s.state = .lookup ∧ s.matched = true)
    (waiting : s.idleReqValid = true) :
    s.Ticks p accepts reenters
      (DCache.handleIdleReq p reenters { s with state := .lookup }).1
      (DCache.handleIdleReq p reenters { s with state := .lookup }).2 := by
  have id : Function.update s.lookupReq.id 0 (s.idleReq.id 0) 0 = s.idleReq.id 0 :=
    Function.update_self ..
  rw [handleIdleReq_eq p reenters _ (.inr rfl)]
  dsimp only
  cases found : matchWay p s.tagvs (splitAddr p s.idleReq.addr) with
  | none => exact .missed _ _ off ready waiting id rfl found
  | some way =>
      refine .hit _ _ _ off ready waiting id (by rw [found]; rfl) ?_
      cases reenters with
      | false => exact .inl rfl
      | true => exact .inr rfl

/-- A tick of the DCache does one of the things that a cache may do. -/
theorem DCache.tick_ticks (p : CacheParams) (accepts reenters : Bool) (s : DCache.State) :
    s.Ticks p accepts reenters (DCache.tick p accepts reenters s).1
      (DCache.tick p accepts reenters s).2 := by
  obtain ⟨state, idleReq, idleReqValid, lookupReq, lookupLine, matched, replaceWay, reqClearWait,
    flushValid, flushNum, flushSet, tagvs, lru, own⟩ := s
  cases flushValid with
  | true => exact .flushed _ rfl
  | false =>
      cases state with
      | idle =>
          cases idleReqValid with
          | false => exact .stays rfl (.inl ⟨rfl, rfl⟩)
          | true => exact takeUp_ticks p accepts reenters _ rfl (.inl rfl) rfl
      | lookup =>
          cases matched with
          | false =>
              cases reqClearWait with
              | true => exact .held _ rfl rfl rfl rfl (.inl ⟨rfl, rfl⟩)
              | false =>
                  cases accepts with
                  | true => exact .sent _ _ rfl rfl rfl rfl rfl rfl
                  | false => exact .held _ rfl rfl rfl rfl (.inr ⟨rfl, rfl, rfl⟩)
          | true =>
              by_cases store : (lookupReq.req == .writeBack) = true
              · simp only [tick, Bool.false_eq_true, if_false, Bool.not_true, store, if_true]
                refine .done .write idleReqValid _ rfl (.inl ⟨rfl, rfl⟩) (.inr rfl) (fun h => h) ?_
                exact Tagvs.holds_write_of_keep fun _ => ⟨rfl, rfl⟩
              · simp only [tick, Bool.false_eq_true, if_false, Bool.not_true, store]
                cases idleReqValid with
                | false =>
                    exact .done .idle false tagvs rfl (.inl ⟨rfl, rfl⟩) (.inl rfl) nofun
                      fun _ _ => .rfl
                | true => exact takeUp_ticks p accepts reenters _ rfl (.inr ⟨rfl, rfl⟩) rfl
      | write =>
          exact .done .idle idleReqValid tagvs rfl (.inr (.inl rfl)) (.inl rfl) (fun h => h)
            fun _ _ => .rfl
      | miss => exact .stays rfl (.inr (.inl rfl))
      | refill =>
          exact .done .idle false tagvs rfl (.inr (.inr rfl)) (.inl rfl) nofun fun _ _ => .rfl

/-- An answer from below fills the way that was chosen, and is told above. -/
theorem DCache.callback_fills (reenters : Bool) (s : DCache.State) :
    s.Fills true reenters (DCache.callback reenters s).1 (DCache.callback reenters s).2 := by
  have installs : s.Installs (s.tagvs.write s.lookupLine.set s.replaceWay fun t =>
      { t.fill s.lookupLine.tag with dirty := s.lookupReq.req == .writeBack }) :=
    ⟨_, fun _ => ⟨rfl, rfl⟩, rfl⟩
  cases wait : s.reqClearWait with
  | true =>
      simp only [callback, wait, if_true]
      exact .cancelled _ s.own wait installs
  | false =>
      simp only [callback, wait, Bool.false_eq_true, if_false]
      cases reenters with
      | false =>
          refine .delivered _ s.own .refill false s.idleReqValid wait installs (.inl rfl) ?_ id
          simp
      | true =>
          simp only [notify, if_true, redirect]
          refine .delivered _ s.own .refill _ false wait installs (.inl rfl) ?_ nofun
          simp

/-- An answer from below fills the way that was chosen, and is told above. -/
theorem ICache.callback_fills (reenters : Bool) (s : ICache.State) :
    s.Fills false reenters (ICache.callback reenters s).1 (ICache.callback reenters s).2 := by
  have installs : s.Installs (s.tagvs.write s.lookupLine.set s.replaceWay
      (.fill s.lookupLine.tag)) := ⟨_, fun _ => ⟨rfl, rfl⟩, rfl⟩
  cases wait : s.reqClearWait with
  | true =>
      simp only [callback, wait, if_true]
      exact .cancelled _ _ wait installs
  | false =>
      simp only [callback, wait, Bool.false_eq_true, if_false]
      cases reenters with
      | false =>
          refine .delivered _ _ .refill false s.idleReqValid wait installs (.inl rfl) ?_ fun h => h
          simp
      | true =>
          -- `in_callback` keeps this `redirect` from setting `req_clear_wait`.
          refine .delivered _ _ .idle false false wait installs (.inr rfl) ?_ nofun
          simp

/-- A tick is not a callback. -/
theorem ICache.tick_inCallback (p : CacheParams) (accepts reenters : Bool) (s : ICache.State) :
    (ICache.tick p accepts reenters s).1.own.inCallback = s.own.inCallback := by
  obtain ⟨state, idleReq, idleReqValid, lookupReq, lookupLine, matched, replaceWay, reqClearWait,
    flushValid, flushNum, flushSet, tagvs, lru, own⟩ := s
  cases flushValid with
  | true => rfl
  | false =>
      cases state with
      | idle =>
          cases idleReqValid with
          | false => rfl
          | true =>
              have taken :=
                handleIdleReq_eq p reenters ⟨.idle, idleReq, true, lookupReq, lookupLine,
                matched, replaceWay, reqClearWait, false, flushNum, flushSet, tagvs, lru, own⟩
                (.inl rfl)
              exact congrArg (·.1.own.inCallback) taken
      | lookup =>
          cases matched with
          | false => cases reqClearWait <;> cases accepts <;> rfl
          | true =>
              cases idleReqValid with
              | false => rfl
              | true =>
                  have taken := handleIdleReq_eq p reenters ⟨.lookup, idleReq, true, lookupReq,
                    lookupLine, true, replaceWay, reqClearWait, false, flushNum, flushSet, tagvs,
                    lru, own⟩ (.inr rfl)
                  exact congrArg (·.1.own.inCallback) taken
      | write => rfl
      | miss => rfl
      | refill => rfl

/-- The ICache keeps the contract of a cache. -/
theorem iCache_contract (p : CacheParams) :
    (iCache p).Contract p ICache.Own.inCallback false (· % 65536) where
  lookup req s := by
    change ICache.lookup req s = _ ∨ _ ∧ _ ∧ ICache.lookup req s = _
    rw [ICache.lookup]
    split
    · rename_i free
      simp only [Bool.and_eq_true, Bool.not_eq_true', Bool.or_eq_true, beq_iff_eq] at free
      exact .inr ⟨free.1, free.2, rfl⟩
    · exact .inl rfl
  tick := ICache.tick_ticks p
  flush s := rfl
  flushes accepts reenters s on := by
    change ICache.tick p accepts reenters s = _
    simp [ICache.tick, on]
  redirect := ICache.redirect_eq
  callback := ICache.callback_fills
  tick_inCallback := ICache.tick_inCallback p
  callback_inCallback reenters s := rfl

/-- The DCache keeps the contract of a cache. -/
theorem dCache_contract (p : CacheParams) :
    (dCache p).Contract p (fun _ => false) true id where
  lookup req s := by
    change DCache.lookup req s = _ ∨ _ ∧ _ ∧ DCache.lookup req s = _
    rw [DCache.lookup]
    split
    · rename_i free
      simp only [Bool.and_eq_true, Bool.not_eq_true', Bool.or_eq_true, beq_iff_eq] at free
      exact .inr ⟨free.1, free.2.imp_right And.left, rfl⟩
    · exact .inl rfl
  tick := DCache.tick_ticks p
  flush s := rfl
  flushes accepts reenters s on := by
    change DCache.tick p accepts reenters s = _
    simp [DCache.tick, on]
  redirect := DCache.redirect_eq
  callback := DCache.callback_fills
  tick_inCallback _ _ _ := rfl
  callback_inCallback _ _ := rfl

end CPUDelaySim
