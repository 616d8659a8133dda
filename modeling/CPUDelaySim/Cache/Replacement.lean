import CPUDelaySim.Cache.Fills
import CPUDelaySim.Common.Recency

/-!
# The way a miss replaces

`LRUReplace::insert` is there for hits, but neither cache calls it: `get` alone rotates the list
of a set.  So a miss replaces the way that was filled longest ago, and the way that was accessed
longest ago only if that is the same.

The accesses of a set are recorded next to a run: a hit when it is answered, a fill when it is
sent.

`Inv` is what every step keeps: read from the back, the list of a set is its fills in their order,
and a way holds the line of the access made there last.  With it the way of a miss is oldest among
the fills, and `Recency` turns "oldest" into a count of lines accessed since.

`CacheAudit` records accesses and does not influence the cache: `step` runs `CacheSystem.step`
and appends.
-/

namespace CPUDelaySim

variable {O : Type}

/-- An access of a way of a set, and the tag of its line. -/
structure WayAccess where
  way : Nat
  tag : Word
  fill : Bool

/-- The accesses of each set, newest first. -/
abbrev Accesses := Nat → List WayAccess

namespace Accesses

/-- The ways accessed. -/
def ways (accesses : Accesses) (set : Nat) : List Nat := (accesses set).map WayAccess.way

/-- The ways filled. -/
def fills (accesses : Accesses) (set : Nat) : List Nat :=
  ((accesses set).filter WayAccess.fill).map WayAccess.way

/-- The tags of the lines accessed. -/
def tags (accesses : Accesses) (set : Nat) : List Word := (accesses set).map WayAccess.tag

/-- An access more. -/
def add (accesses : Accesses) (set : Nat) (access : WayAccess) : Accesses :=
  Function.update accesses set (access :: accesses set)

/-- The access a tick makes, which leaves the cache `s` and says `e`. -/
def record (p : CacheParams) (s : CacheState O) (accesses : Accesses) : Event → Accesses
  | .answered _ =>
      match matchWay p s.tagvs s.lookupLine with
      | some way => accesses.add s.lookupLine.set ⟨way, s.lookupLine.tag, false⟩
      | none => accesses
  | .requested fetch => accesses.add s.lookupLine.set ⟨fetch.way, s.lookupLine.tag, true⟩
  | _ => accesses

end Accesses

/-- A cache, and the accesses of its ways. -/
structure CacheAudit (O : Type) where
  sys : CacheSystem O
  accesses : Accesses

namespace CacheAudit

/-- A step of the cache. -/
def step (p : CacheParams) (c : Cache O) (s : CacheAudit O) (j : CacheStep) :
    Except Unasked (CacheAudit O) := do
  let sys ← CacheSystem.step c s.sys j
  match j with
  | .tick _ _ =>
      let out := sys.log.drop s.sys.log.length
      return ⟨sys, out.foldl (Accesses.record p sys.cache) s.accesses⟩
  | _ => return ⟨sys, s.accesses⟩

/-- The cache before any access. -/
def start (cache : CacheState O) : CacheAudit O := ⟨.start cache, fun _ => []⟩

/-- No flush and no redirect. -/
def Plain : CacheStep → Prop
  | .lookup _ => True
  | .tick _ reenters | .answer _ reenters => reenters = false
  | .flush | .redirect => False

/-- The step is a tick that sends a miss. -/
def SendsMiss (s s' : CacheAudit O) : Prop :=
  ∃ fetch, s'.sys.log = s.sys.log ++ [.requested fetch]

/-- The way replaced was accessed longest ago, so if it held a line, lines in number of the other
ways were accessed after that. -/
def ReplacesLru (p : CacheParams) (s s' : CacheAudit O) : Prop :=
  let set := s'.sys.cache.lookupLine.set
  let way := s'.sys.cache.replaceWay
  let evicted := s.sys.cache.tagvs set way
  Oldest (s.accesses.ways set) (List.range p.way) way ∧
    (evicted.valid = true → p.way - 1 ≤ (since (s.accesses.tags set) evicted.tag).toFinset.card)

/-- A way filled longest ago is one accessed longest ago. -/
def FifoIsLru (p : CacheParams) (s : CacheAudit O) (set : Nat) : Prop :=
  ∀ way < p.way, Oldest (s.accesses.fills set) (List.range p.way) way →
    Oldest (s.accesses.ways set) (List.range p.way) way

/-! ### The invariant -/

/-- The tags in the ways of a set.  The way chosen for a miss that was sent counts as filled. -/
def content (s : CacheState O) (set way : Nat) : Option Word :=
  if s.state = .miss ∧ set = s.lookupLine.set ∧ way = s.replaceWay then some s.lookupLine.tag
  else if (s.tagvs set way).valid then some (s.tagvs set way).tag
  else none

/-- The lists are the fills in their order, and the ways hold the lines last accessed in them. -/
structure Inv (p : CacheParams) (s : CacheAudit O) : Prop where
  one : s.sys.OneRequest
  clear : s.sys.cache.reqClearWait = false
  off : s.sys.cache.flushValid = false
  complete : s.sys.cache.lru.Complete p
  queue : ∀ set, (s.sys.cache.lru set).Pairwise (Older (s.accesses.fills set))
  placed : ∀ set, Placed ((s.accesses set).map fun a => (a.way, a.tag)) (content s.sys.cache set)
  filled : ∀ set, ∀ way ∈ s.accesses.ways set, way ∈ s.accesses.fills set
  inside : ∀ set way, content s.sys.cache set way ≠ none → way < p.way
  absent : s.sys.cache.state = .lookup → s.sys.cache.matched = false →
    ∀ way < p.way, ¬ s.sys.cache.tagvs.Holds s.sys.cache.lookupLine way

/-- At first the cache is empty and no set has been accessed. -/
theorem start_inv (p : CacheParams) (req : CacheReq) (own : O) :
    (start (.afterLoad p req own)).Inv p where
  one := CacheSystem.start_oneRequest p req own
  clear := rfl
  off := rfl
  complete := LruList.setParams_complete p
  queue _ := List.pairwise_of_forall fun _ _ => .inl List.not_mem_nil
  placed _ := ⟨nofun, nofun, nofun⟩
  filled _ _ mem := nomatch mem
  inside _ _ full := absurd rfl full
  absent := nofun

/-- With no miss under way, a way holds what its tag says. -/
theorem content_of_not_miss {s : CacheState O} (left : s.state ≠ .miss) (set way : Nat) :
    content s set way =
      if (s.tagvs set way).valid then some (s.tagvs set way).tag else none := by
  rw [content, if_neg fun miss => left miss.1]

/-- So that it holds a line exactly if the tag matches. -/
theorem content_eq_some_iff {s : CacheState O} (left : s.state ≠ .miss) (set way : Nat)
    (tag : Word) :
    content s set way = some tag ↔ s.tagvs.Holds ⟨set, tag⟩ way := by
  rw [content_of_not_miss left, Tagvs.Holds]
  by_cases valid : (s.tagvs set way).valid = true
  · simp [valid]
  · simp [valid]

/-- The content is what the tag array holds. -/
theorem content_congr {s s' : CacheState O} (left : s.state ≠ .miss) (left' : s'.state ≠ .miss)
    (kept : ∀ line way, s'.tagvs.Holds line way ↔ s.tagvs.Holds line way) :
    content s' = content s := by
  funext set way
  refine Option.ext fun tag => ?_
  rw [content_eq_some_iff left', content_eq_some_iff left]
  exact kept ⟨set, tag⟩ way

section Step

variable {p : CacheParams} {s : CacheAudit O} {sys : CacheSystem O}

/-- A step without an access. -/
theorem Inv.quiet (inv : s.Inv p) (one : sys.OneRequest) (clear : sys.cache.reqClearWait = false)
    (off : sys.cache.flushValid = false) (lru : sys.cache.lru = s.sys.cache.lru)
    (same : content sys.cache = content s.sys.cache)
    (absent : sys.cache.state = .lookup → sys.cache.matched = false →
      ∀ way < p.way, ¬ sys.cache.tagvs.Holds sys.cache.lookupLine way) :
    Inv p ⟨sys, s.accesses⟩ where
  one := one
  clear := clear
  off := off
  complete := lru ▸ inv.complete
  queue set := lru ▸ inv.queue set
  placed set := same ▸ inv.placed set
  filled := inv.filled
  inside := same ▸ inv.inside
  absent := absent

/-- A hit. -/
theorem Inv.hits (inv : s.Inv p) (one : sys.OneRequest) (clear : sys.cache.reqClearWait = false)
    (off : sys.cache.flushValid = false) (lru : sys.cache.lru = s.sys.cache.lru)
    (same : content sys.cache = content s.sys.cache) (matched : sys.cache.matched = true)
    {set way : Nat} {tag : Word} (holds : content s.sys.cache set way = some tag) :
    Inv p ⟨sys, s.accesses.add set ⟨way, tag, false⟩⟩ := by
  have fills (i : Nat) : (s.accesses.add set ⟨way, tag, false⟩).fills i = s.accesses.fills i := by
    by_cases here : i = set
    · subst here
      simp [Accesses.fills, Accesses.add]
    · simp [Accesses.fills, Accesses.add, here]
  refine ⟨one, clear, off, lru ▸ inv.complete, fun i => ?_, fun i => ?_, fun i w mem => ?_,
    same ▸ inv.inside, fun _ unmatched => ?_⟩
  · rw [fills, lru]
    exact inv.queue i
  · rw [same]
    by_cases here : i = set
    · subst here
      simpa [Accesses.add] using (inv.placed i).hit holds
    · simpa [Accesses.add, here] using inv.placed i
  · rw [fills]
    by_cases here : i = set
    · subst here
      have ways : (s.accesses.add i ⟨way, tag, false⟩).ways i = way :: s.accesses.ways i := by
        simp [Accesses.ways, Accesses.add]
      rw [ways] at mem
      rcases List.mem_cons.1 mem with rfl | mem
      · -- The way holds the line, so it was accessed before.
        have accessed := List.mem_of_find?_eq_some ((inv.placed i).place w tag holds)
        obtain ⟨access, made, last⟩ := List.mem_map.1 accessed
        exact inv.filled i w (List.mem_map.2 ⟨access, made, congrArg Prod.fst last⟩)
      · exact inv.filled i w mem
    · have ways : (s.accesses.add set ⟨way, tag, false⟩).ways i = s.accesses.ways i := by
        simp [Accesses.ways, Accesses.add, here]
      exact inv.filled i w (ways ▸ mem)
  · rw [matched] at unmatched
    cases unmatched

/-- The list of a set, as `get` finds and leaves it. -/
theorem Inv.lru_cons (inv : s.Inv p) (set : Nat) :
    ∃ queue, s.sys.cache.lru set = (s.sys.cache.lru.get set).1 :: queue ∧
      (s.sys.cache.lru.get set).2 set = queue ++ [(s.sys.cache.lru.get set).1] ∧
        ((s.sys.cache.lru.get set).1 :: queue).Nodup := by
  have perm := inv.complete set
  have nodup := perm.nodup_iff.2 List.nodup_range
  cases ways : s.sys.cache.lru set with
  | nil =>
      have none : p.way = 0 := by simpa [ways] using perm.length_eq.symm
      exact absurd none (Nat.ne_of_gt p.way_pos)
  | cons way queue =>
      rw [ways] at nodup
      exact ⟨queue, by simp [LruList.get, ways], by simp [LruList.get, ways],
        by simpa [LruList.get, ways] using nodup⟩

/-- A miss that is sent takes the way away from what it held. -/
theorem content_sends {t : CacheState O} (left : s.sys.cache.state ≠ .miss) (miss : t.state = .miss)
    (tagvs : t.tagvs = s.sys.cache.tagvs) (set : Nat) :
    content t set =
      if set = t.lookupLine.set then
        Function.update (content s.sys.cache set) t.replaceWay (some t.lookupLine.tag)
      else content s.sys.cache set := by
  funext way
  rw [content, tagvs]
  by_cases here : set = t.lookupLine.set
  · by_cases same : way = t.replaceWay
    · rw [if_pos ⟨miss, here, same⟩, if_pos here, same, Function.update_self]
    · rw [if_neg fun chosen => same chosen.2.2, if_pos here, Function.update_of_ne same,
        content_of_not_miss left]
  · rw [if_neg fun chosen => here chosen.2.1, if_neg here, content_of_not_miss left]

/-- A miss that is sent. -/
theorem Inv.sends (inv : s.Inv p) (one : sys.OneRequest) (clear : sys.cache.reqClearWait = false)
    (off : sys.cache.flushValid = false) (state : s.sys.cache.state = .lookup)
    (unmatched : s.sys.cache.matched = false) (miss : sys.cache.state = .miss)
    (line : sys.cache.lookupLine = s.sys.cache.lookupLine)
    (tagvs : sys.cache.tagvs = s.sys.cache.tagvs)
    (way : sys.cache.replaceWay = (s.sys.cache.lru.get s.sys.cache.lookupLine.set).1)
    (lru : sys.cache.lru = (s.sys.cache.lru.get s.sys.cache.lookupLine.set).2) :
    Inv p ⟨sys, s.accesses.add sys.cache.lookupLine.set
      ⟨sys.cache.replaceWay, sys.cache.lookupLine.tag, true⟩⟩ := by
  have left : s.sys.cache.state ≠ .miss := by
    rw [state]
    rintro ⟨⟩
  have content := content_sends left miss tagvs
  have chosen := LruList.get_lt inv.complete s.sys.cache.lookupLine.set
  have missing := inv.absent state unmatched
  obtain ⟨queue, before, after, distinct⟩ := inv.lru_cons s.sys.cache.lookupLine.set
  have ordered := inv.queue s.sys.cache.lookupLine.set
  rw [line] at content ⊢
  rw [way] at content ⊢
  rw [before] at ordered
  refine ⟨one, clear, off, lru ▸ LruList.get_complete inv.complete _, fun i => ?_, fun i => ?_,
    fun i w mem => ?_, fun i w full => ?_, fun looking => ?_⟩
  · by_cases here : i = s.sys.cache.lookupLine.set
    · subst here
      -- The way chosen goes to the end of its list, as the one filled last.
      have rotated := pairwise_rotate distinct ordered
      rw [lru, after]
      simpa [Accesses.fills, Accesses.add] using rotated
    · have same : sys.cache.lru i = s.sys.cache.lru i := by
        rw [lru, LruList.get]
        exact Function.update_of_ne here ..
      rw [same]
      simpa [Accesses.fills, Accesses.add, here] using inv.queue i
  · rw [content]
    by_cases here : i = s.sys.cache.lookupLine.set
    · -- The tag was not in the set, so it is put into one way and no other.
      have added := (inv.placed i).fill (a := (s.sys.cache.lru.get s.sys.cache.lookupLine.set).1)
        (k := s.sys.cache.lookupLine.tag) fun w held => by
          have bound := inv.inside i w (by rw [held]; rintro ⟨⟩)
          rw [content_eq_some_iff left, here] at held
          exact missing w bound held
      rw [if_pos here]
      simpa [Accesses.add, here] using added
    · rw [if_neg here]
      simpa [Accesses.add, here] using inv.placed i
  · have kept := inv.filled i w
    by_cases here : i = s.sys.cache.lookupLine.set
    · subst here
      simp only [Accesses.ways, Accesses.fills, Accesses.add, Function.update_self, List.map_cons,
        List.mem_cons, List.filter_cons_of_pos] at mem kept ⊢
      exact mem.imp_right kept
    · simp only [Accesses.ways, Accesses.fills, Accesses.add, Function.update_of_ne here]
        at mem kept ⊢
      exact kept mem
  · rw [content] at full
    by_cases here : i = s.sys.cache.lookupLine.set
    · by_cases same : w = (s.sys.cache.lru.get s.sys.cache.lookupLine.set).1
      · rw [same]
        exact chosen
      · rw [if_pos here, Function.update_of_ne same] at full
        exact inv.inside i w full
    · rw [if_neg here] at full
      exact inv.inside i w full
  · rw [miss] at looking
    cases looking

/-- What a tick does to the accesses: a hit is answered, a miss is sent. -/
theorem Inv.ticks (inv : s.Inv p) {accepts : Bool} {cache : CacheState O} {out : List Event}
    (ticks : s.sys.cache.Ticks p accepts false cache out) (sys : CacheSystem O)
    (left : sys.cache = cache) (one : sys.OneRequest) :
    Inv p ⟨sys, out.foldl (Accesses.record p cache) s.accesses⟩ := by
  have idle (ready : s.sys.cache.state = .idle ∨ s.sys.cache.state = .lookup ∧
      s.sys.cache.matched = true) : s.sys.cache.state ≠ .miss := by
    rcases ready with at_ | ⟨at_, -⟩ <;> rw [at_] <;> rintro ⟨⟩
  cases ticks with
  | flushed num on =>
      rw [inv.off] at on
      cases on
  | stays off resting =>
      exact inv.quiet one (left ▸ inv.clear) (left ▸ inv.off) (left ▸ rfl) (left ▸ rfl)
        (left ▸ inv.absent)
  | hit req state own off ready waiting id found next =>
      have busy : sys.cache.state ≠ .miss := by
        rw [left]
        rcases next with rfl | rfl <;> rintro ⟨⟩
      have same : content sys.cache = content s.sys.cache :=
        content_congr (idle ready) busy fun line way => by rw [left]
      obtain ⟨way, hits⟩ := Option.isSome_iff_exists.1 found
      have holds := (content_eq_some_iff (idle ready) _ _ _).2 (matchWay_holds hits).2
      have hit := inv.hits one (left ▸ inv.clear) (left ▸ off) (left ▸ rfl) same (left ▸ rfl) holds
      have recorded (t : CacheState O) (tagvs : t.tagvs = s.sys.cache.tagvs)
          (line : t.lookupLine = splitAddr p s.sys.cache.idleReq.addr) :
          (told (s.sys.cache.idleReq.id 0) false).foldl (Accesses.record p t) s.accesses =
            s.accesses.add t.lookupLine.set ⟨way, t.lookupLine.tag, false⟩ := by
        rw [← tagvs, ← line] at hits
        simp only [told, Bool.false_eq_true, if_false, List.foldl_cons, List.foldl_nil,
          Accesses.record, hits]
      rw [recorded]
      · exact hit
      · rfl
      · rfl
  | missed req own off ready waiting id addr absent =>
      have busy : sys.cache.state ≠ .miss := by
        rw [left]
        rintro ⟨⟩
      have same : content sys.cache = content s.sys.cache :=
        content_congr (idle ready) busy fun line way => by rw [left]
      -- The lookup that misses is no access yet: it counts when it is sent.
      refine inv.quiet one (left ▸ inv.clear) (left ▸ off) (left ▸ rfl) same fun _ _ => ?_
      rw [left]
      exact (matchWay_eq_none ..).1 absent
  | held req off state unmatched id why =>
      have same : content sys.cache = content s.sys.cache := by
        rw [left]
        rfl
      refine inv.quiet one (left ▸ inv.clear) (left ▸ off) (left ▸ rfl) same fun _ _ => ?_
      rw [left]
      exact inv.absent state unmatched
  | sent req own off state unmatched clear taken id =>
      have sends := inv.sends one (left ▸ clear) (left ▸ off) state unmatched (left ▸ rfl)
        (left ▸ rfl) (left ▸ rfl) (left ▸ rfl) (left ▸ rfl)
      rw [left] at sends
      exact sends
  | done state valid tagvs off answered next dropped kept =>
      -- The states after an answer are about neither a lookup nor a miss.
      have here : s.sys.cache.state ≠ .miss := by
        rcases answered with ⟨at_, -⟩ | at_ | at_ <;> rw [at_] <;> rintro ⟨⟩
      have busy : sys.cache.state ≠ .miss ∧ sys.cache.state ≠ .lookup := by
        rw [left]
        rcases next with rfl | rfl <;> exact ⟨by rintro ⟨⟩, by rintro ⟨⟩⟩
      have same : content sys.cache = content s.sys.cache :=
        content_congr here busy.1 (left ▸ kept)
      exact inv.quiet one (left ▸ inv.clear) (left ▸ off) (left ▸ rfl) same
        fun looking => absurd looking busy.2

/-- An answer fills the way that already counts as filled. -/
theorem Inv.answers (inv : s.Inv p) {strays : Bool} {cache : CacheState O} {out : List Event}
    (fills : s.sys.cache.Fills strays false cache out) (owed : s.sys.cache.state = .miss)
    (sys : CacheSystem O) (left : sys.cache = cache) (one : sys.OneRequest) :
    Inv p ⟨sys, s.accesses⟩ := by
  cases fills with
  | cancelled tagvs own wait installs =>
      rw [inv.clear] at wait
      cases wait
  | delivered tagvs own state flag valid clear installs next why dropped =>
      have busy : sys.cache.state ≠ .miss ∧ sys.cache.state ≠ .lookup := by
        rw [left]
        rcases next with rfl | rfl <;> exact ⟨nofun, nofun⟩
      have waits : flag = false := by
        by_contra set
        cases (why.1 (Bool.not_eq_false _ ▸ set)).2.1
      have same : content sys.cache = content s.sys.cache := by
        funext set way
        refine Option.ext fun tag => ?_
        rw [content_eq_some_iff busy.1, left]
        refine (CacheSystem.holds_of_installs installs ⟨set, tag⟩ way).trans ?_
        rw [content]
        by_cases here : set = s.sys.cache.lookupLine.set ∧ way = s.sys.cache.replaceWay
        · rw [if_pos ⟨owed, here⟩]
          simp [here, Line.ext_iff, eq_comm]
        · rw [if_neg fun chosen => here chosen.2]
          have other : ¬ ((⟨set, tag⟩ : Line) = s.sys.cache.lookupLine ∧
              way = s.sys.cache.replaceWay) :=
            fun same => here ⟨congrArg Line.set same.1, same.2⟩
          simp only [other, here, not_false_eq_true, and_true, false_or, Tagvs.Holds]
          by_cases full : (s.sys.cache.tagvs set way).valid = true
          · simp [full]
          · simp [full]
      exact inv.quiet one (left ▸ waits) (left ▸ inv.off) (left ▸ rfl) same
        fun looking => absurd looking busy.2

/-- A tick sends a miss in one way. -/
theorem Inv.replaced_iff (inv : s.Inv p) {accepts : Bool} {cache : CacheState O}
    {out : List Event} (ticks : s.sys.cache.Ticks p accepts false cache out) {s' : CacheAudit O}
    (left : s'.sys.cache = cache) {fetch : Fetch} (sends : out = [.requested fetch]) :
    s.ReplacesLru p s' ↔ s.FifoIsLru p s'.sys.cache.lookupLine.set := by
  cases ticks with
  | sent req own off state unmatched clear taken id =>
      obtain ⟨queue, before, -, -⟩ := inv.lru_cons s.sys.cache.lookupLine.set
      have ordered := inv.queue s.sys.cache.lookupLine.set
      have perm := inv.complete s.sys.cache.lookupLine.set
      rw [before] at ordered perm
      have first : Oldest (s.accesses.fills s.sys.cache.lookupLine.set) (List.range p.way)
          (s.sys.cache.lru.get s.sys.cache.lookupLine.set).1 :=
        fun way mem other => oldest_head ordered way (perm.mem_iff.2 mem) other
      have chosen := LruList.get_lt inv.complete s.sys.cache.lookupLine.set
      rw [ReplacesLru, FifoIsLru, left]
      dsimp only
      generalize (s.sys.cache.lru.get s.sys.cache.lookupLine.set).1 = victim at first chosen ⊢
      constructor
      · rintro ⟨oldest, -⟩ way bound first'
        by_cases same : way = victim
        · exact same ▸ oldest
        · -- Both were never filled, so neither was accessed.
          have unfilled := (first'.unique first (List.mem_range.2 bound) (List.mem_range.2 chosen)
            same).1
          exact fun _ _ _ => .inl fun accessed => unfilled (inv.filled _ way accessed)
      · intro fifo
        have oldest := fifo victim chosen first
        refine ⟨oldest, fun full => ?_⟩
        have holds : content s.sys.cache s.sys.cache.lookupLine.set victim =
            some (s.sys.cache.tagvs s.sys.cache.lookupLine.set victim).tag := by
          rw [content_of_not_miss (by rw [state]; nofun), if_pos full]
        have count : ((Finset.range p.way).erase victim).card ≤ _ :=
          (inv.placed s.sys.cache.lookupLine.set).card_since_of_oldest holds fun way mem other => by
            have older := oldest way (List.mem_range.2 (Finset.mem_range.1 mem)) other
            rw [List.map_map]
            exact older
        rw [Finset.card_erase_of_mem (Finset.mem_range.2 chosen), Finset.card_range,
          List.map_map] at count
        exact count
  | hit req state own off ready waiting id found next => cases sends
  | _ => cases sends

end Step

section Run

variable {p : CacheParams} {c : Cache O} {inCallback : O → Bool} {strays : Bool}
  {wrap : Int → Int}

/-- A tick of the audit is a tick of the cache, with what it says. -/
theorem step_tick {s s' : CacheAudit O} {accepts reenters : Bool}
    (moved : step p c s (.tick accepts reenters) = .ok s') :
    ∃ cache out, c.tick accepts reenters s.sys.cache = (cache, out) ∧ s'.sys.cache = cache ∧
      s'.sys.log = s.sys.log ++ out ∧
        CacheSystem.step c s.sys (.tick accepts reenters) = .ok s'.sys ∧
          s' = ⟨s'.sys, out.foldl (Accesses.record p cache) s.accesses⟩ := by
  obtain ⟨sys, stepped, same⟩ := (bind_eq_ok _ _ _).1 moved
  cases same
  cases stepped
  refine ⟨_, _, rfl, rfl, rfl, rfl, ?_⟩
  simp

/-- Every step keeps the order of the ways and of the accesses that missed. -/
theorem Inv.step (contract : c.Contract p inCallback strays wrap) {s s' : CacheAudit O}
    {j : CacheStep} (inv : s.Inv p) (plain : Plain j) (moved : step p c s j = .ok s') :
    s'.Inv p := by
  cases j with
  | lookup req =>
      obtain ⟨sys, stepped, same⟩ := (bind_eq_ok _ _ _).1 moved
      cases same
      have moves := CacheSystem.step_moves contract stepped
      have one := inv.one.moves moves
      cases moves with
      | refused => exact inv
      | accepted _ off ready => exact inv.quiet one inv.clear inv.off rfl rfl inv.absent
  | tick accepts reenters =>
      obtain ⟨cache, out, ran, left, -, stepped, whole⟩ := step_tick moved
      have one := inv.one.moves (CacheSystem.step_moves contract stepped)
      have ticks := contract.tick accepts reenters s.sys.cache
      rw [ran] at ticks
      obtain rfl : reenters = false := plain
      rw [whole]
      exact inv.ticks ticks s'.sys left one
  | flush => cases plain
  | redirect => cases plain
  | answer index reenters =>
      obtain ⟨sys, stepped, same⟩ := (bind_eq_ok _ _ _).1 moved
      cases same
      have moves := CacheSystem.step_moves contract stepped
      have one := inv.one.moves moves
      obtain rfl : reenters = false := plain
      cases moves with
      | answered _ _ fetch flushes cache out owed ran fills =>
          have asked : s.sys.outstanding ≠ [] := fun none => by
            rw [none] at owed
            cases owed
          have miss := (inv.one.owed asked).resolve_right (by rw [inv.clear]; nofun)
          exact inv.answers fills miss _ rfl one

/-- The invariant holds wherever a plain run takes a step. -/
theorem Inv.visits (contract : c.Contract p inCallback strays wrap) {start s : CacheAudit O}
    (inv : start.Inv p) {steps : List CacheStep} (plain : ∀ j ∈ steps, Plain j) {j : CacheStep}
    (visit : Visits (CacheAudit.step p c) start steps s j) : s.Inv p ∧ Plain j := by
  have member {t : CacheAudit O} {i : CacheStep}
      (visit : Visits (CacheAudit.step p c) start steps t i) : i ∈ steps := by
    obtain ⟨before, after, rfl, -⟩ := (visits_iff ..).1 visit
    simp
  refine ⟨?_, plain j (member visit)⟩
  exact visit.invariant inv fun t i visit inv t' moved =>
    inv.step contract (plain i (member visit)) moved

/-- In a run without flushes and redirects, a miss replaces the way accessed longest ago exactly
if the ways filled longest ago are accessed longest ago. -/
theorem contract_replacesLru_iff (contract : c.Contract p inCallback strays wrap) (req : CacheReq)
    (own : O) {steps : List CacheStep} (plain : ∀ j ∈ steps, Plain j) {s s' : CacheAudit O}
    {j : CacheStep} (visit : Visits (step p c) (start (.afterLoad p req own)) steps s j)
    (moved : step p c s j = .ok s') (sends : s.SendsMiss s') :
    s.ReplacesLru p s' ↔ s.FifoIsLru p s'.sys.cache.lookupLine.set := by
  obtain ⟨inv, plain⟩ := (start_inv p req own).visits contract plain visit
  obtain ⟨fetch, said⟩ := sends
  cases j with
  | lookup req =>
      obtain ⟨sys, stepped, same⟩ := (bind_eq_ok _ _ _).1 moved
      cases same
      cases stepped
      have out := List.append_cancel_left said
      split at out
      · cases out
      · cases out
  | tick accepts reenters =>
      obtain ⟨cache, out, ran, left, log, -, -⟩ := step_tick moved
      have ticks := contract.tick accepts reenters s.sys.cache
      rw [ran] at ticks
      obtain rfl : reenters = false := plain
      exact inv.replaced_iff ticks left (List.append_cancel_left (log.symm.trans said))
  | flush => cases plain
  | redirect => cases plain
  | answer index reenters =>
      obtain ⟨sys, stepped, same⟩ := (bind_eq_ok _ _ _).1 moved
      cases same
      cases CacheSystem.step_moves contract stepped with
      | answered _ _ fetch flushes cache out owed ran fills =>
          have out := List.append_cancel_left said
          cases out

end Run

/-- Both caches, in every run of lookups, ticks and answers: a miss replaces the way accessed
longest ago exactly if the ways filled longest ago are accessed longest ago. The caches never
call `insert`, so only `get` moves a list, which is therefore in the order of the fills
(`Inv.queue`). -/
theorem replacesLru_iff (p : CacheParams) {steps : List CacheStep}
    (plain : ∀ j ∈ steps, Plain j) :
    (∀ s s' j, Visits (step p (iCache p)) (start (ICache.afterLoad p)) steps s j →
        step p (iCache p) s j = .ok s' → s.SendsMiss s' →
          (s.ReplacesLru p s' ↔ s.FifoIsLru p s'.sys.cache.lookupLine.set)) ∧
      ∀ s s' j, Visits (step p (dCache p)) (start (DCache.afterLoad p)) steps s j →
        step p (dCache p) s j = .ok s' → s.SendsMiss s' →
          (s.ReplacesLru p s' ↔ s.FifoIsLru p s'.sys.cache.lookupLine.set) :=
  ⟨fun _ _ _ visit moved sends =>
      contract_replacesLru_iff (iCache_contract p) _ _ plain visit moved sends,
    fun _ _ _ visit moved sends =>
      contract_replacesLru_iff (dCache_contract p) _ _ plain visit moved sends⟩

/-- Two ways. -/
def twoWays : CacheParams := { CacheParams.shipped with way := 2, way_pos := by decide }

/-- A lookup that misses and is answered. -/
def missOf (addr : Word) : List CacheStep :=
  [.lookup ⟨.readShared, 4, fun _ => 0, addr⟩, .tick true false, .tick true false,
    .answer 0 false, .tick true false]

/-- Two lines are filled, and a third address of the set is looked up. -/
def fillSteps : List CacheStep :=
  missOf 0x80000000 ++ missOf 0x80001000 ++
    [.lookup ⟨.readShared, 4, fun _ => 0, 0x80002000⟩, .tick true false]

/-- In between the first line is hit. -/
def hitSteps : List CacheStep :=
  missOf 0x80000000 ++ missOf 0x80001000 ++
    [.lookup ⟨.readShared, 4, fun _ => 0, 0x80000000⟩, .tick true false, .tick true false,
      .lookup ⟨.readShared, 4, fun _ => 0, 0x80002000⟩, .tick true false]

/-- A tick after a run, read off by running both. -/
theorem exists_visit (c : Cache O) (cache : CacheState O) (steps : List CacheStep)
    (f : CacheAudit O → CacheAudit O → Bool)
    (ran : ((runSteps (step twoWays c) (start cache) steps >>= fun s =>
      step twoWays c s (.tick true false) >>= fun s' =>
        .ok (f s s') : Except Unasked Bool)).toOption.map id = some true) :
    ∃ s s', Visits (step twoWays c) (start cache) (steps ++ [.tick true false]) s
        (.tick true false) ∧
      step twoWays c s (.tick true false) = .ok s' ∧ f s s' = true := by
  obtain ⟨_, ended, rfl⟩ := exists_ok_of_toOption ran
  obtain ⟨s, before, ended⟩ := (bind_eq_ok _ _ _).1 ended
  obtain ⟨s', moved, same⟩ := (bind_eq_ok _ _ _).1 ended
  exact ⟨s, s', (visits_iff ..).2 ⟨steps, [], rfl, before⟩, moved, Except.ok.inj same⟩

/-- The first way of set 0 is sent for, and it is accessed longest ago. -/
def sendsFirst (oldest : Bool) (s s' : CacheAudit O) : Bool :=
  s'.sys.log == s.sys.log ++ [.requested ⟨0x80002000, 0⟩] &&
    s'.sys.cache.lookupLine.set == 0 && s'.sys.cache.replaceWay == 0 &&
      decide (Oldest (s.accesses.ways 0) [0, 1] 0) == oldest &&
        decide (Oldest (s.accesses.fills 0) [0, 1] 1) == false

/-- What the search for an example has checked. -/
theorem sendsFirst_spec {oldest : Bool} {s s' : CacheAudit O}
    (seen : sendsFirst oldest s s' = true) :
    s.SendsMiss s' ∧ s'.sys.cache.lookupLine.set = 0 ∧ s'.sys.cache.replaceWay = 0 ∧
      (Oldest (s.accesses.ways 0) [0, 1] 0 ↔ oldest = true) ∧
        ¬ Oldest (s.accesses.fills 0) [0, 1] 1 := by
  simp only [sendsFirst, Bool.and_eq_true, beq_iff_eq, decide_eq_false_iff_not] at seen
  obtain ⟨⟨⟨⟨said, set⟩, way⟩, first⟩, second⟩ := seen
  exact ⟨⟨_, said⟩, set, way, by rw [← first, decide_eq_true_eq], second⟩

/-- The second line was accessed longest ago, and the first is replaced. -/
theorem not_replacesLru_hitSteps :
    (∃ s s', Visits (step twoWays (iCache twoWays)) (start (ICache.afterLoad twoWays))
        (hitSteps ++ [.tick true false]) s (.tick true false) ∧
      step twoWays (iCache twoWays) s (.tick true false) = .ok s' ∧ s.SendsMiss s' ∧
        ¬ s.ReplacesLru twoWays s') ∧
    ∃ s s', Visits (step twoWays (dCache twoWays)) (start (DCache.afterLoad twoWays))
        (hitSteps ++ [.tick true false]) s (.tick true false) ∧
      step twoWays (dCache twoWays) s (.tick true false) = .ok s' ∧ s.SendsMiss s' ∧
        ¬ s.ReplacesLru twoWays s' := by
  refine ⟨?_, ?_⟩
  · obtain ⟨s, s', visit, moved, seen⟩ := exists_visit (iCache twoWays) (ICache.afterLoad twoWays)
      hitSteps (sendsFirst false) (by decide +kernel)
    obtain ⟨sends, set, way, oldest, -⟩ := sendsFirst_spec seen
    refine ⟨s, s', visit, moved, sends, fun replaces => ?_⟩
    rw [ReplacesLru, set, way] at replaces
    exact absurd (oldest.1 replaces.1) (by decide)
  · obtain ⟨s, s', visit, moved, seen⟩ := exists_visit (dCache twoWays) (DCache.afterLoad twoWays)
      hitSteps (sendsFirst false) (by decide +kernel)
    obtain ⟨sends, set, way, oldest, -⟩ := sendsFirst_spec seen
    refine ⟨s, s', visit, moved, sends, fun replaces => ?_⟩
    rw [ReplacesLru, set, way] at replaces
    exact absurd (oldest.1 replaces.1) (by decide)

/-- A miss that replaces the oldest way. -/
theorem replacesLru_iff_fillSteps :
    ∃ s s', step twoWays (iCache twoWays) s (.tick true false) = .ok s' ∧ s.SendsMiss s' ∧
      s.ReplacesLru twoWays s' := by
  have plain : ∀ j ∈ fillSteps ++ [.tick true false], Plain j := by
    simp [fillSteps, missOf, Plain]
  obtain ⟨s, s', visit, moved, seen⟩ := exists_visit (iCache twoWays) (ICache.afterLoad twoWays)
    fillSteps (sendsFirst true) (by decide +kernel)
  obtain ⟨sends, set, -, oldest, second⟩ := sendsFirst_spec seen
  refine ⟨s, s', moved, sends, ((replacesLru_iff twoWays plain).1 s s' _ visit moved sends).2 ?_⟩
  intro way bound first
  rw [set] at first ⊢
  match way, bound with
  | 0, _ => exact oldest.2 rfl
  | 1, _ => exact absurd first second

end CacheAudit

end CPUDelaySim
