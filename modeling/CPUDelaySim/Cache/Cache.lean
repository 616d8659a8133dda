import CPUDelaySim.Common.DecodeInfo
import Mathlib.Data.Nat.Bitwise
import Mathlib.Data.List.Perm.Basic

/-!
# The cache classes

`class Cache` of `cache/cache.h` and what `ICache` and `DCache` share: the tag array,
`splitAddr` and `match`, the LRU lists, and the state machine's fields.  `ICache` and
`DCache` declare those fields separately, under one set of names, so one record holds
them; the members only one of the two has are its parameter `O`.

A cache talks to its client through `callbacks[0]` and to its parent through
`parent->lookup`.  Each function below returns what it said, as a list of `Event`.  The
client may call `redirect` before the callback returns (`PipelineCPU::preId` does, through
`frontRedirect`), so a function that calls back takes a flag that says whether it did.

The parent is `Memory` in every layer file: its `lookup` cuts the address of the request it
is handed to 40 bits, in place, whether or not it accepts it.
-/

namespace CPUDelaySim

variable {O : Type}

/-- `enum packed snoop_req_t`; `READ_END` is another name for `MAKE_INVALID`. -/
inductive SnoopReq
  | snoopNone | readOnce | readShared | readClean | readUnique | makeUnique | cleanShared
  | cleanInvalid | cleanUnique | makeInvalid | writeUnique | writeClean | writeBack | writeEvict
  deriving DecidableEq, Repr

/-- `uint16_t id[4]`. -/
abbrev Ids := Fin 4 → BitVec 16

instance neZeroFour : NeZero 4 := ⟨by decide⟩

/-- `struct CacheReq`. -/
structure CacheReq where
  req : SnoopReq
  size : BitVec 32
  id : Ids
  addr : Word

/-- A request as zero-initialised memory holds it. -/
def CacheReq.zero : CacheReq := ⟨.snoopNone, 0, fun _ => 0, 0⟩

/-- `struct CacheTagv`. -/
@[ext] structure CacheTagv where
  tag : Word
  valid : Bool
  shared : Bool
  dirty : Bool
  deriving DecidableEq, Repr

/-- The configured members of `Cache`.  All three are `int`; lines and sets come in
powers of two. -/
structure CacheParams where
  lineSize : Nat
  setSize : Nat
  way : Nat
  lineSize_pow : lineSize.isPowerOfTwo
  setSize_pow : setSize.isPowerOfTwo
  setSize_lt : setSize < 2 ^ 31
  way_pos : 0 < way

namespace CacheParams

/-- Where the set begins in an address. -/
def indexOffset (p : CacheParams) : Nat := p.lineSize.log2

/-- Where the tag begins in an address. -/
def tagOffset (p : CacheParams) : Nat := p.lineSize.log2 + p.setSize.log2

/-- The bits of a set number. -/
def setMask (p : CacheParams) : Word := BitVec.ofNat 64 (p.setSize - 1)

/-- There is a set. -/
theorem setSize_pos (p : CacheParams) : 0 < p.setSize := Nat.pos_of_isPowerOfTwo p.setSize_pow

/-- The caches of `configs/params.py`. -/
def shipped : CacheParams :=
  ⟨64, 64, 8, ⟨6, rfl⟩, ⟨6, rfl⟩, by decide, by decide⟩

end CacheParams

/-- A set and a tag. -/
@[ext] structure Line where
  set : Nat
  tag : Word
  deriving DecidableEq, Repr

/-- `Cache::splitAddr`.  Neither cache uses the offset. -/
def splitAddr (p : CacheParams) (addr : Word) : Line where
  set := ((addr >>> p.indexOffset) &&& p.setMask).toNat
  tag := addr >>> p.tagOffset

/-- The set of an address is one of the cache. -/
theorem splitAddr_set_lt (p : CacheParams) (addr : Word) : (splitAddr p addr).set < p.setSize := by
  have pos := p.setSize_pos
  have small := p.setSize_lt
  have mask : p.setMask.toNat = p.setSize - 1 := by
    rw [CacheParams.setMask, BitVec.toNat_ofNat]
    exact Nat.mod_eq_of_lt (by omega)
  have le : (splitAddr p addr).set ≤ p.setMask.toNat := by
    rw [splitAddr, BitVec.toNat_and]
    exact Nat.and_le_right
  omega

/-- `tagvs`: the ways of each set. -/
abbrev Tagvs := Nat → Nat → CacheTagv

/-- The way holds the line. -/
def Tagvs.Holds (tagvs : Tagvs) (line : Line) (way : Nat) : Prop :=
  (tagvs line.set way).valid = true ∧ (tagvs line.set way).tag = line.tag

instance (tagvs : Tagvs) (line : Line) (way : Nat) : Decidable (tagvs.Holds line way) := by
  unfold Tagvs.Holds
  infer_instance

/-- `Cache::match`, as the index of the way it returns. -/
def matchWay (p : CacheParams) (tagvs : Tagvs) (line : Line) : Option Nat :=
  (List.range p.way).find? fun i => decide (tagvs.Holds line i)

/-- A miss: no way holds the line. -/
theorem matchWay_eq_none (p : CacheParams) (tagvs : Tagvs) (line : Line) :
    matchWay p tagvs line = none ↔ ∀ i < p.way, ¬ tagvs.Holds line i := by
  simp [matchWay]

/-- A hit: the way that matches holds the line. -/
theorem matchWay_holds {p : CacheParams} {tagvs : Tagvs} {line : Line} {i : Nat}
    (found : matchWay p tagvs line = some i) : i < p.way ∧ tagvs.Holds line i := by
  refine ⟨?_, ?_⟩
  · exact List.mem_range.1 (List.mem_of_find?_eq_some found)
  · have held := List.find?_some (p := fun i => decide (tagvs.Holds line i)) found
    exact of_decide_eq_true held

/-- A way written. -/
def Tagvs.write (tagvs : Tagvs) (set way : Nat) (f : CacheTagv → CacheTagv) : Tagvs :=
  fun s w => if s = set ∧ w = way then f (tagvs s w) else tagvs s w

/-- `tagvs[set][i]->valid = false` for every way `i`. -/
def Tagvs.clearSet (tagvs : Tagvs) (set : Nat) : Tagvs :=
  fun s w => if s = set then { tagvs s w with valid := false } else tagvs s w

/-- `CacheTagv` written by an answer. -/
def CacheTagv.fill (tag : Word) (t : CacheTagv) : CacheTagv := { t with tag := tag, valid := true }

/-- A fill leaves every other way as it was. -/
theorem Tagvs.holds_write_of_ne {tagvs : Tagvs} {set way : Nat} {f : CacheTagv → CacheTagv}
    {line : Line} {w : Nat} (other : ¬ (line.set = set ∧ w = way)) :
    (tagvs.write set way f).Holds line w ↔ tagvs.Holds line w := by
  simp [Holds, write, other]

/-- A write that keeps `tag` and `valid` moves no line. -/
theorem Tagvs.holds_write_of_keep {tagvs : Tagvs} {set way : Nat} {f : CacheTagv → CacheTagv}
    (keeps : ∀ t, (f t).valid = t.valid ∧ (f t).tag = t.tag) (line : Line) (w : Nat) :
    (tagvs.write set way f).Holds line w ↔ tagvs.Holds line w := by
  by_cases same : line.set = set ∧ w = way
  · simp [Holds, write, same, keeps]
  · exact holds_write_of_ne same

/-- What is in a set that has been cleared. -/
theorem Tagvs.holds_clearSet (tagvs : Tagvs) (set : Nat) (line : Line) (w : Nat) :
    (tagvs.clearSet set).Holds line w ↔ line.set ≠ set ∧ tagvs.Holds line w := by
  by_cases same : line.set = set <;> simp [Holds, clearSet, same]

/-! ### Replacement -/

/-- `LRUReplace::lru_list`: the ways of each set, least recently chosen first. -/
abbrev LruList := Nat → List Nat

/-- `LRUReplace::setParams`. -/
def LruList.setParams (way : Nat) : LruList := fun _ => List.range way

/-- `LRUReplace::get`: the first way of the set, and the list with it moved to the back. -/
def LruList.get (lru : LruList) (set : Nat) : Nat × LruList :=
  ((lru set).headD 0, Function.update lru set ((lru set).tail ++ (lru set).take 1))

/-- Every list holds every way once. -/
def LruList.Complete (p : CacheParams) (lru : LruList) : Prop :=
  ∀ set, (lru set).Perm (List.range p.way)

/-- At first every set has all ways. -/
theorem LruList.setParams_complete (p : CacheParams) : (setParams p.way).Complete p :=
  fun _ => List.Perm.refl _

/-- `get` keeps all ways in every set. -/
theorem LruList.get_complete {p : CacheParams} {lru : LruList} (complete : lru.Complete p)
    (set : Nat) : (lru.get set).2.Complete p := by
  intro s
  by_cases same : s = set
  · subst same
    have rotated : ((lru s).tail ++ (lru s).take 1).Perm (lru s) := by
      cases lru s with
      | nil => exact List.Perm.refl _
      | cons w rest => exact List.perm_append_singleton w rest
    simpa [get] using rotated.trans (complete s)
  · simpa [get, same] using complete s

/-- The way that is picked is one of the cache. -/
theorem LruList.get_lt {p : CacheParams} {lru : LruList} (complete : lru.Complete p)
    (set : Nat) : (lru.get set).1 < p.way := by
  have perm := complete set
  have pos := p.way_pos
  cases ways : lru set with
  | nil =>
      rw [ways] at perm
      have none : p.way = 0 := by simpa using perm.length_eq.symm
      omega
  | cons w rest =>
      rw [ways] at perm
      simpa [get, ways] using perm.mem_iff.1 (List.mem_cons_self ..)

/-! ### The state of a cache -/

/-- `state_t`; only `DCache` has `WRITE`. -/
inductive CacheFsm
  | idle | lookup | write | miss | refill
  deriving DecidableEq, Repr

/-- The members both caches declare.  `idle_req` is a pointer to the client's request,
which is read when the tick takes the lookup up; clients leave it alone until then, so the
request itself is kept.  `flush_num` is a `uint16_t` in `ICache` and an `int` in `DCache`. -/
structure CacheState (O : Type) where
  state : CacheFsm
  idleReq : CacheReq
  idleReqValid : Bool
  lookupReq : CacheReq
  /-- `lookup_set` and `lookup_tag`. -/
  lookupLine : Line
  /-- `_match`. -/
  matched : Bool
  replaceWay : Nat
  reqClearWait : Bool
  flushValid : Bool
  flushNum : Int
  flushSet : Nat
  tagvs : Tagvs
  lru : LruList
  own : O

/-- The cache after `afterLoad`; `ObjectFactory` builds it with `new T()`, which zeroes it. -/
def CacheState.afterLoad (p : CacheParams) (lookupReq : CacheReq) (own : O) : CacheState O where
  state := .idle
  idleReq := .zero
  idleReqValid := false
  lookupReq := lookupReq
  lookupLine := ⟨0, 0⟩
  matched := false
  replaceWay := 0
  reqClearWait := false
  flushValid := false
  flushNum := 0
  flushSet := 0
  tagvs := fun _ _ => ⟨0, false, false, false⟩
  lru := .setParams p.way
  own := own

/-- A request the parent accepted: the address it was sent and the way chosen for it. -/
structure Fetch where
  addr : Word
  way : Nat
  deriving DecidableEq, Repr

/-- What passes between a cache, its client and its parent. -/
inductive Event
  | accepted (id : BitVec 16)
  | answered (id : BitVec 16)
  | redirected
  | requested (fetch : Fetch)
  | served (fetch : Fetch)
  deriving DecidableEq, Repr

/-- The part of `tick` that walks the flush on, up to the width of `flush_num`. -/
def flushTick (p : CacheParams) (flushNum : Int) (s : CacheState O) : CacheState O :=
  { s with
    flushNum := flushNum
    tagvs := s.tagvs.clearSet s.flushSet
    flushSet := (s.flushSet + 1) % p.setSize
    flushValid := if flushNum = 0 then false else s.flushValid }

/-- `flush`, up to the width of `flush_num`. -/
def flushWith (flushNum : Int) (s : CacheState O) : CacheState O :=
  { s with flushSet := 0, flushNum := flushNum, flushValid := true }

/-- `callbacks[0](lookup_req->id, nullptr)`, with the `redirect` the client may call. -/
def notify (redirect : CacheState O → CacheState O) (reenters : Bool) (s : CacheState O) :
    CacheState O × List Event :=
  if reenters then (redirect s, [.answered (s.lookupReq.id 0), .redirected])
  else (s, [.answered (s.lookupReq.id 0)])

/-- `Memory::lookup` on the address of the request it is handed. -/
def cutAddr (addr : Word) : Word := addr &&& 0xffffffffff

/-- An accepted `parent->lookup(callback_id, lookup_req)`: the way is chosen and the
cache waits. -/
def CacheState.send (s : CacheState O) : CacheState O × List Event :=
  let chosen := s.lru.get s.lookupLine.set
  ({ s with
     lookupReq := { s.lookupReq with addr := cutAddr s.lookupReq.addr }
     replaceWay := chosen.1
     lru := chosen.2
     state := .miss }, [.requested ⟨s.lookupReq.addr, chosen.1⟩])

/-- A refused one. -/
def CacheState.refused (s : CacheState O) : CacheState O :=
  { s with lookupReq := { s.lookupReq with addr := cutAddr s.lookupReq.addr } }

/-- The virtual functions of `class Cache`, and the callback `afterLoad` registers with the
parent. -/
structure Cache (O : Type) where
  lookup : CacheReq → CacheState O → CacheState O × Bool
  /-- The flags: the parent accepts, the client calls `redirect` from its callback. -/
  tick : Bool → Bool → CacheState O → CacheState O × List Event
  flush : CacheState O → CacheState O
  redirect : CacheState O → CacheState O
  callback : Bool → CacheState O → CacheState O × List Event

end CPUDelaySim
