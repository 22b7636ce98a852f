import Mathlib
import Miniweb.Http.ResponsePool
import Miniweb.Lib.Exclusive
import Miniweb.Lib.FreeStack
import Miniweb.Lib.Transition

/-! Who holds which response. A response is with a caller, or with the thread that creates
or frees it; the rest are on the free stacks, each on that of the pool it lies in. -/
namespace Miniweb.ResponsePoolProofs

open Miniweb.Lib Miniweb.Lib.FreeStack Miniweb.Http

variable {τ η : Type} {shard : Fin responsePoolShards} {idx : Fin responsePoolItems}
  {address : Nat}

/-! ## Holders -/

/-- A holder of responses: a caller's place, or a thread inside one of the functions. -/
inductive Holder (τ η : Type) where
  | owner (place : η)
  | thread (t : τ)
  deriving DecidableEq

/-- The response a thread has in hand. -/
def inHand : RespPhase → Option Resp
  | .idle | .fallback => none
  | .popped shard idx => some (.pooled shard idx)
  | .releasing resp | .pushing resp _ _ | .freeing resp => some resp

/-- What every holder holds. -/
def heldBy (owner : η → Option Resp) (phase : τ → RespPhase) : Holder τ η → Option Resp
  | .owner place => owner place
  | .thread t => inHand (phase t)

/-- The items of a pool that somebody holds. -/
noncomputable def usedIn (held : Holder τ η → Option Resp) (shard : Fin responsePoolShards) :
    Finset (Fin responsePoolItems) := by
  classical exact Finset.univ.filter fun idx => InUse held (.pooled shard idx)

variable {held held' : Holder τ η → Option Resp} {shards : Fin responsePoolShards → ResponsePool}
  {heap : Nat → Bool} {holder : Holder τ η} {pool : ResponsePool} {k : Nat} {resp : Resp}

theorem mem_usedIn : idx ∈ usedIn held shard ↔ InUse held (.pooled shard idx) := by
  simp [usedIn]

/-- The stack that a pool's next call finds lists the items nobody holds. -/
def Divided (held : Holder τ η → Option Resp) (shard : Fin responsePoolShards)
    (pool : ResponsePool) : Prop :=
  Splits (responsePoolInitLocked pool).freeStack (responsePoolInitLocked pool).freeTop
    (usedIn held shard)

/-- The books of the pools and of the heap: every response has one holder at most, every
pool is divided, and one that has not been set up has all its items; blocks in use are
allocated. -/
structure Accounts (held : Holder τ η → Option Resp) (shards : Fin responsePoolShards → ResponsePool)
    (heap : Nat → Bool) : Prop where
  exclusive : Exclusive (Holds held)
  divided : ∀ shard, Divided held shard (shards shard)
  untouched : ∀ shard idx, InUse held (.pooled shard idx) → (shards shard).initialized = true
  allocated : ∀ address, InUse held (.heap address) → heap address = true

/-! ## Pools -/

theorem initLocked_of_initialized (initialized : pool.initialized = true) :
    responsePoolInitLocked pool = pool := by
  rw [responsePoolInitLocked, if_pos initialized]

theorem initialized_initLocked (pool : ResponsePool) :
    (responsePoolInitLocked pool).initialized = true := by
  rw [responsePoolInitLocked]
  split
  · assumption
  · rfl

theorem divided_iff (initialized : pool.initialized = true) :
    Divided held shard pool ↔ Splits pool.freeStack pool.freeTop (usedIn held shard) := by
  rw [Divided, initLocked_of_initialized initialized]

/-- A pool that has just been set up has all its items on the stack. -/
theorem divided_fresh (unused : ∀ idx, ¬ InUse held (.pooled shard idx)) : Divided held shard {} where
  distinct i below j below' same := by
    simp only [responsePoolInitLocked, Bool.false_eq_true, if_false, Fin.mk.injEq] at below below' same
    omega
  free_iff idx := by
    refine iff_of_true (fun used => unused idx (mem_usedIn.mp used)) ⟨1023 - idx, ?_, ?_⟩
    · simp only [responsePoolInitLocked, Bool.false_eq_true, if_false]
      omega
    · have below : idx.val < 1024 := idx.isLt
      simp only [responsePoolInitLocked, Bool.false_eq_true, if_false, Fin.ext_iff]
      omega

/-- A pool stays divided while its items are in use as before. -/
theorem Divided.congr (divided : Divided held shard pool)
    (same : ∀ idx, InUse held' (.pooled shard idx) ↔ InUse held (.pooled shard idx)) :
    Divided held' shard pool := by
  have used : usedIn held' shard = usedIn held shard := by
    ext idx
    rw [mem_usedIn, mem_usedIn, same]
  rwa [Divided, used]

/-- One pool is called and the items of the others are in use as before. -/
theorem divided_update (accounts : Accounts held shards heap) (here : Divided held' shard pool)
    (others : ∀ shard' idx, shard' ≠ shard →
      (InUse held' (.pooled shard' idx) ↔ InUse held (.pooled shard' idx))) (shard' : _) :
    Divided held' shard' (Function.update shards shard pool shard') := by
  by_cases same : shard' = shard
  · subst same
    rwa [Function.update_self]
  · rw [Function.update_of_ne same]
    exact (accounts.divided shard').congr fun idx => others shard' idx same

theorem untouched_update (accounts : Accounts held shards heap)
    (initialized : pool.initialized = true)
    (others : ∀ shard' idx, shard' ≠ shard →
      InUse held' (.pooled shard' idx) → InUse held (.pooled shard' idx)) (shard' : _)
    (idx : Fin responsePoolItems) (used : InUse held' (.pooled shard' idx)) :
    (Function.update shards shard pool shard').initialized = true := by
  by_cases same : shard' = shard
  · subst same
    rwa [Function.update_self]
  · rw [Function.update_of_ne same]
    exact accounts.untouched shard' idx (others shard' idx same used)

/-! ## What a step does to the books -/

/-- A pool without free items is set up, if it was not. -/
theorem Accounts.starve (accounts : Accounts held shards heap) (shard : Fin responsePoolShards) :
    Accounts held (Function.update shards shard (responsePoolInitLocked (shards shard))) heap where
  exclusive := accounts.exclusive
  divided := by
    refine divided_update accounts ?_ fun _ _ _ => Iff.rfl
    exact (divided_iff (initialized_initLocked _)).mpr (accounts.divided shard)
  untouched := untouched_update accounts (initialized_initLocked _) fun _ _ _ used => used
  allocated := accounts.allocated

section Steps

variable [DecidableEq τ] [DecidableEq η]

/-- The item on top of a stack is taken by a holder with empty hands. -/
theorem Accounts.take (accounts : Accounts held shards heap) (empty : held holder = none)
    (available : (responsePoolInitLocked (shards shard)).freeTop = k + 1)
    (top : (responsePoolInitLocked (shards shard)).freeStack k = idx) :
    ¬ InUse held (.pooled shard idx) ∧
      Accounts (Function.update held holder (some (.pooled shard idx)))
        (Function.update shards shard { responsePoolInitLocked (shards shard) with freeTop := k })
        heap := by
  have divided := accounts.divided shard
  rw [Divided, available] at divided
  have unused : ¬ InUse held (.pooled shard idx) := by
    rw [← mem_usedIn, ← top]
    exact divided.top_free
  have others (shard' : _) (idx' : Fin responsePoolItems) (different : shard' ≠ shard) :
      InUse (Function.update held holder (some (.pooled shard idx))) (.pooled shard' idx') ↔
        InUse held (.pooled shard' idx') := by
    rw [inUse_put empty]
    simp [different]
  refine ⟨unused, accounts.exclusive.put unused holder, divided_update accounts ?_ others,
    untouched_update accounts (initialized_initLocked (shards shard)) fun shard' idx' different =>
      (others shard' idx' different).mp, fun address used => ?_⟩
  · have used : usedIn (Function.update held holder (some (.pooled shard idx))) shard =
        insert idx (usedIn held shard) := by
      ext idx'
      simp [mem_usedIn, inUse_put empty]
    refine (divided_iff ?_).mpr ?_
    · exact initialized_initLocked (shards shard)
    · rw [used, ← top]
      exact divided.pop
  · rw [inUse_put empty] at used
    exact accounts.allocated address (used.resolve_left nofun)

/-- A response changes hands. -/
theorem Accounts.move {a b : Holder τ η} (accounts : Accounts held shards heap)
    (holds : Holds held a resp) (empty : held b = none) :
    Accounts (Function.update (Function.update held a none) b (some resp)) shards heap where
  exclusive := accounts.exclusive.move holds b
  divided shard :=
    (accounts.divided shard).congr fun _ => inUse_move accounts.exclusive holds empty
  untouched shard idx used :=
    accounts.untouched shard idx ((inUse_move accounts.exclusive holds empty).mp used)
  allocated address used :=
    accounts.allocated address ((inUse_move accounts.exclusive holds empty).mp used)

/-- A block that was not in use comes from the heap. -/
theorem Accounts.calloc (accounts : Accounts held shards heap) (empty : held holder = none)
    (fresh : heap address = false) :
    ¬ InUse held (.heap address) ∧
      Accounts (Function.update held holder (some (.heap address))) shards
        (Function.update heap address true) := by
  have unused : ¬ InUse held (.heap address) := by
    intro used
    rw [accounts.allocated address used] at fresh
    cases fresh
  refine ⟨unused, accounts.exclusive.put unused holder, fun shard => ?_, fun shard idx used => ?_,
    fun address' used => ?_⟩
  · refine (accounts.divided shard).congr fun idx => ?_
    rw [inUse_put empty]
    simp
  · rw [inUse_put empty] at used
    exact accounts.untouched shard idx (used.resolve_left nofun)
  · by_cases same : address' = address
    · subst same
      exact Function.update_self ..
    · rw [inUse_put empty] at used
      rw [Function.update_of_ne same]
      exact accounts.allocated address' (used.resolve_left fun here => same (Resp.heap.inj here))

/-- An item goes back to its pool, whose stack has room for it. -/
theorem Accounts.push (accounts : Accounts held shards heap)
    (holds : Holds held holder (.pooled shard idx)) :
    (shards shard).freeTop < 1024 ∧
      Accounts (Function.update held holder none)
        (Function.update shards shard
          { shards shard with
            freeStack := Function.update (shards shard).freeStack (shards shard).freeTop idx
            freeTop := (shards shard).freeTop + 1 }) heap := by
  have initialized := accounts.untouched shard idx ⟨holder, holds⟩
  have divided := (divided_iff initialized).mp (accounts.divided shard)
  have member : idx ∈ usedIn held shard := mem_usedIn.mpr ⟨holder, holds⟩
  have others (shard' : _) (idx' : Fin responsePoolItems) (different : shard' ≠ shard) :
      InUse (Function.update held holder none) (.pooled shard' idx') ↔
        InUse held (.pooled shard' idx') := by
    rw [inUse_clear accounts.exclusive holds]
    simp [different]
  refine ⟨?_, accounts.exclusive.clear holder, divided_update accounts ?_ others,
    untouched_update accounts initialized fun shard' idx' different =>
      (others shard' idx' different).mp, fun address used => ?_⟩
  · have total : _ + _ = 1024 := divided.card_add_top
    have positive := Finset.card_pos.mpr ⟨idx, member⟩
    omega
  · have used : usedIn (Function.update held holder none) shard = (usedIn held shard).erase idx := by
      ext idx'
      simp [mem_usedIn, inUse_clear accounts.exclusive holds]
    refine (divided_iff ?_).mpr ?_
    · exact initialized
    · rw [used]
      exact divided.push member
  · rw [inUse_clear accounts.exclusive holds] at used
    exact accounts.allocated address used.2

/-- A block goes back to the heap. -/
theorem Accounts.release (accounts : Accounts held shards heap)
    (holds : Holds held holder (.heap address)) :
    Accounts (Function.update held holder none) shards (Function.update heap address false) where
  exclusive := accounts.exclusive.clear holder
  divided shard := by
    refine (accounts.divided shard).congr fun idx => ?_
    rw [inUse_clear accounts.exclusive holds]
    simp
  untouched shard idx used :=
    accounts.untouched shard idx ((inUse_clear accounts.exclusive holds).mp used).2
  allocated address' used := by
    obtain ⟨different, used⟩ := (inUse_clear accounts.exclusive holds).mp used
    have elsewhere : address' ≠ address := fun same => different (congrArg Resp.heap same)
    rw [Function.update_of_ne elsewhere]
    exact accounts.allocated address' used

end Steps

/-! ## Fields and phases -/

variable {s s' : ResponsePools τ η} {t : τ} {place : η}

/-- What `pool_shard_idx` says of a response that has been returned. -/
def shardLabel : Resp → Int
  | .pooled shard _ => shard
  | .heap _ => -1

/-- What a thread relies on in its phase: in front of the checks the field is right, and
behind them the response goes to its own pool or to the heap it is from. -/
def PhaseOk (fieldOf : Resp → Int) : RespPhase → Prop
  | .idle | .popped _ _ | .fallback => True
  | .releasing resp => fieldOf resp = shardLabel resp
  | .pushing resp shard idx => resp = .pooled shard idx
  | .freeing resp => ∃ address, resp = .heap address

/-- Where a response belongs that is being freed. -/
def destination : Resp → RespPhase
  | .pooled shard idx => .pushing (.pooled shard idx) shard idx
  | .heap address => .freeing (.heap address)

theorem inHand_destination (resp : Resp) : inHand (destination resp) = some resp := by
  cases resp with
  | pooled shard idx => rfl
  | heap address => rfl

theorem phaseOk_destination (fieldOf : Resp → Int) (resp : Resp) :
    PhaseOk fieldOf (destination resp) := by
  cases resp with
  | pooled shard idx => rfl
  | heap address => exact ⟨address, rfl⟩

/-- The whole invariant. -/
structure Sound (s : ResponsePools τ η) : Prop where
  accounts : Accounts (heldBy s.owner s.phase) s.shards s.heap
  labelled : ∀ place resp, s.owner place = some resp → s.poolShardIdx resp = shardLabel resp
  phases : ∀ t, PhaseOk s.poolShardIdx (s.phase t)

theorem sound_start : Sound ({} : ResponsePools τ η) where
  accounts := by
    have nobody (resp : Resp) : ¬ InUse (heldBy (fun _ : η => none) fun _ : τ => .idle) resp := by
      rintro ⟨_ | _, here⟩
      · cases here
      · cases here
    exact
      { exclusive := fun resp a _ here _ => absurd ⟨a, here⟩ (nobody resp)
        divided := fun shard => divided_fresh fun _ => nobody _
        untouched := fun _ _ used => absurd used (nobody _)
        allocated := fun _ used => absurd used (nobody _) }
  labelled := nofun
  phases := fun _ => trivial

/-- The field of one response is written; a phase relies on the others. -/
theorem PhaseOk.write {field : Resp → Int} {p : RespPhase} {value : Int} (ok : PhaseOk field p)
    (other : inHand p ≠ some resp) : PhaseOk (Function.update field resp value) p := by
  cases p with
  | releasing resp' =>
    have different : resp' ≠ resp := fun same => other (congrArg some same)
    rw [PhaseOk, Function.update_of_ne different]
    exact ok
  | idle => trivial
  | popped shard idx => trivial
  | fallback => trivial
  | pushing resp shard idx => exact ok
  | freeing resp => exact ok

/-- What a thread has in hand nobody else holds. -/
theorem Sound.alone (sound : Sound s) (inhand : inHand (s.phase t) = some resp) :
    (∀ u, u ≠ t → inHand (s.phase u) ≠ some resp) ∧ ∀ place, s.owner place ≠ some resp := by
  constructor
  · intro u different here
    exact different (Holder.thread.inj
      (sound.accounts.exclusive resp (.thread u) (.thread t) here inhand))
  · intro place here
    exact nomatch sound.accounts.exclusive resp (.owner place) (.thread t) here inhand

/-- The field of a response that no caller has is written. -/
theorem Sound.labelled_write (sound : Sound s) (unowned : ∀ place, s.owner place ≠ some resp)
    (value : Int) (place : η) (other : Resp) (kept : s.owner place = some other) :
    Function.update s.poolShardIdx resp value other = shardLabel other := by
  have different : other ≠ resp := fun here => unowned place (here ▸ kept)
  rw [Function.update_of_ne different]
  exact sound.labelled place other kept

/-- The response is returned to a caller with its field set. -/
theorem Sound.labelled_put [DecidableEq η] (sound : Sound s) (unowned : ∀ place, s.owner place ≠ some resp)
    (place place' : η) (other : Resp)
    (kept : Function.update s.owner place (some resp) place' = some other) :
    Function.update s.poolShardIdx resp (shardLabel resp) other = shardLabel other := by
  by_cases same : place' = place
  · subst same
    rw [Function.update_self] at kept
    cases kept
    exact Function.update_self ..
  · rw [Function.update_of_ne same] at kept
    exact sound.labelled_write unowned _ place' other kept

/-- A caller gives its response up. -/
theorem Sound.labelled_give [DecidableEq η] (sound : Sound s) (place place' : η) (other : Resp)
    (kept : Function.update s.owner place none place' = some other) :
    s.poolShardIdx other = shardLabel other := by
  by_cases same : place' = place
  · subst same
    rw [Function.update_self] at kept
    cases kept
  · rw [Function.update_of_ne same] at kept
    exact sound.labelled place' other kept

section Step

variable [DecidableEq τ] [DecidableEq η] {tid : τ → UInt64}

theorem heldBy_phase (owner : η → Option Resp) (phase : τ → RespPhase) (t : τ) (p : RespPhase) :
    heldBy owner (Function.update phase t p) =
      Function.update (heldBy owner phase) (.thread t) (inHand p) := by
  funext holder
  cases holder with
  | owner place => rfl
  | thread u =>
    by_cases same : u = t
    · subst same
      simp [heldBy]
    · simp [heldBy, same]

theorem heldBy_owner (owner : η → Option Resp) (phase : τ → RespPhase) (place : η)
    (r : Option Resp) : heldBy (Function.update owner place r) phase =
      Function.update (heldBy owner phase) (.owner place) r := by
  funext holder
  cases holder with
  | owner other =>
    by_cases same : other = place
    · subst same
      simp [heldBy]
    · simp [heldBy, same]
  | thread u => rfl

/-- A phase with the same response in hand changes no holder. -/
theorem heldBy_phase_same {p q : RespPhase} (calling : s.phase t = p) (same : inHand q = inHand p) :
    heldBy s.owner (Function.update s.phase t q) = heldBy s.owner s.phase := by
  have here : heldBy s.owner s.phase (.thread t) = inHand p := congrArg inHand calling
  rw [heldBy_phase, same, ← here, Function.update_eq_self]

/-- A thread moves on while no field that another one relies on is written. -/
theorem phases_update {phase : τ → RespPhase} {field : Resp → Int} {p : RespPhase}
    (others : ∀ u, u ≠ t → PhaseOk field (phase u)) (next : PhaseOk field p) (u : τ) :
    PhaseOk field (Function.update phase t p u) := by
  by_cases same : u = t
  · subst same
    rwa [Function.update_self]
  · rw [Function.update_of_ne same]
    exact others u same

omit [DecidableEq η] in
/-- A thread moves on and the field of a response that no other one has is written. -/
theorem Sound.phases_write (sound : Sound s) {p : RespPhase}
    (others : ∀ u, u ≠ t → inHand (s.phase u) ≠ some resp) (value : Int)
    (next : PhaseOk (Function.update s.poolShardIdx resp value) p) (u : τ) :
    PhaseOk (Function.update s.poolShardIdx resp value) (Function.update s.phase t p u) :=
  phases_update (fun u other => (sound.phases u).write (others u other)) next u

/-- A thread goes on with the same response in hand and no field is written. -/
theorem Sound.goesOn (sound : Sound s) {p q : RespPhase} (calling : s.phase t = p)
    (same : inHand q = inHand p) (next : PhaseOk s.poolShardIdx q) :
    Sound { s with phase := Function.update s.phase t q } where
  accounts := by
    rw [heldBy_phase_same calling same]
    exact sound.accounts
  labelled := sound.labelled
  phases := phases_update (fun u _ => sound.phases u) next

/-! ## What a step does -/

/-- Where the checks of `http_response_pool_release` send a response whose field is this. -/
def checked (shardIdx : Int) (resp : Resp) : RespPhase :=
  if inRange : 0 ≤ shardIdx ∧ shardIdx.toNat < responsePoolShards then
    match resp.itemOf ⟨shardIdx.toNat, inRange.2⟩ with
    | some idx => .pushing resp ⟨shardIdx.toNat, inRange.2⟩ idx
    | none => .freeing resp
  else .freeing resp

/-- The changes a step makes, with what it has found. -/
inductive Stepped (tid : τ → UInt64) (s s' : ResponsePools τ η) (t : τ) : RespAct η → Prop where
  | popped (pool : ResponsePool) (idx : Fin responsePoolItems) (calling : s.phase t = .idle)
      (found : pool = responsePoolInitLocked (s.shards (responsePoolShardIndex (tid t))))
      (available : 0 < pool.freeTop) (top : pool.freeStack (pool.freeTop - 1) = idx)
      (after : s' =
        { s with
          shards := Function.update s.shards (responsePoolShardIndex (tid t))
            { pool with freeTop := pool.freeTop - 1 }
          poolShardIdx := Function.update s.poolShardIdx
            (.pooled (responsePoolShardIndex (tid t)) idx) 0
          phase := Function.update s.phase t (.popped (responsePoolShardIndex (tid t)) idx) }) :
      Stepped tid s s' t .acquire
  | starved (pool : ResponsePool) (calling : s.phase t = .idle)
      (found : pool = responsePoolInitLocked (s.shards (responsePoolShardIndex (tid t))))
      (empty : pool.freeTop = 0)
      (after : s' =
        { s with
          shards := Function.update s.shards (responsePoolShardIndex (tid t)) pool
          phase := Function.update s.phase t .fallback }) :
      Stepped tid s s' t .acquire
  | created (shard : Fin responsePoolShards) (idx : Fin responsePoolItems) (place : η)
      (calling : s.phase t = .popped shard idx) (free : s.owner place = none)
      (after : s' =
        { s with
          poolShardIdx := Function.update s.poolShardIdx (.pooled shard idx) shard
          owner := Function.update s.owner place (some (.pooled shard idx))
          phase := Function.update s.phase t .idle }) :
      Stepped tid s s' t (.create place)
  | allocated (address : Nat) (place : η) (calling : s.phase t = .fallback)
      (fresh : s.heap address = false) (free : s.owner place = none)
      (after : s' =
        { s with
          poolShardIdx := Function.update s.poolShardIdx (.heap address) (-1)
          heap := Function.update s.heap address true
          owner := Function.update s.owner place (some (.heap address))
          phase := Function.update s.phase t .idle }) :
      Stepped tid s s' t (.calloc address place)
  | failed (calling : s.phase t = .fallback)
      (after : s' = { s with phase := Function.update s.phase t .idle }) :
      Stepped tid s s' t .callocFails
  | given (resp : Resp) (place : η) (calling : s.phase t = .idle)
      (kept : s.owner place = some resp)
      (after : s' =
        { s with
          owner := Function.update s.owner place none
          phase := Function.update s.phase t (.releasing resp) }) :
      Stepped tid s s' t (.free place)
  | checked (resp : Resp) (calling : s.phase t = .releasing resp)
      (after : s' =
        { s with phase := Function.update s.phase t (checked (s.poolShardIdx resp) resp) }) :
      Stepped tid s s' t .check
  | pushed (resp : Resp) (shard : Fin responsePoolShards) (idx : Fin responsePoolItems)
      (pool : ResponsePool) (calling : s.phase t = .pushing resp shard idx)
      (room : (s.shards shard).freeTop < 1024 → pool =
        { s.shards shard with
          freeStack := Function.update (s.shards shard).freeStack (s.shards shard).freeTop idx
          freeTop := (s.shards shard).freeTop + 1 })
      (after : s' =
        { s with
          shards := Function.update s.shards shard pool
          poolShardIdx := Function.update s.poolShardIdx resp 0
          phase := Function.update s.phase t .idle }) :
      Stepped tid s s' t .push
  | freed (address : Nat) (calling : s.phase t = .freeing (.heap address))
      (after : s' =
        { s with
          heap := Function.update s.heap address false
          phase := Function.update s.phase t .idle }) :
      Stepped tid s s' t .heapFree

theorem stepped_of_respStep {act : RespAct η} (taken : respStep tid s (t, act) = some s') :
    Stepped tid s s' t act := by
  simp only [respStep] at taken
  split at taken
  · rename_i calling
    split at taken
    · rename_i available
      exact .popped _ _ calling rfl available rfl (Option.some.inj taken).symm
    · rename_i empty
      exact .starved _ calling rfl (Nat.eq_zero_of_not_pos empty) (Option.some.inj taken).symm
  · rename_i shard idx place calling
    split at taken
    · rename_i free
      exact .created shard idx place calling free (Option.some.inj taken).symm
    · cases taken
  · rename_i address place calling
    split at taken
    · rename_i free
      exact .allocated address place calling free.1 free.2 (Option.some.inj taken).symm
    · cases taken
  · rename_i calling
    exact .failed calling (Option.some.inj taken).symm
  · rename_i place calling
    obtain ⟨resp, kept, after⟩ := Option.map_eq_some_iff.mp taken
    exact .given resp place calling kept after.symm
  · rename_i resp calling
    exact .checked resp calling (Option.some.inj taken).symm
  · rename_i resp shard idx calling
    refine .pushed resp shard idx _ calling (fun room => ?_) (Option.some.inj taken).symm
    exact if_pos room
  · rename_i address calling
    exact .freed address calling (Option.some.inj taken).symm
  · cases taken

/-- The checks send an item to its own pool and a block to the heap. -/
theorem checked_shardLabel (resp : Resp) : checked (shardLabel resp) resp = destination resp := by
  cases resp with
  | pooled shard idx =>
    have below : shard.val < 16 := shard.isLt
    simp [checked, shardLabel, Resp.itemOf, destination, below]
  | heap address => simp [checked, shardLabel, destination]

theorem checked_ne_fallback (shardIdx : Int) (resp : Resp) : checked shardIdx resp ≠ .fallback := by
  rw [checked]
  split
  · split
    · nofun
    · nofun
  · nofun

theorem check_eq (label : s.poolShardIdx resp = shardLabel resp)
    (calling : s.phase t = .releasing resp) : respStep tid s (t, .check) =
      some { s with phase := Function.update s.phase t (destination resp) } := by
  have checks : respStep tid s (t, .check) = some
      { s with phase := Function.update s.phase t (checked (s.poolShardIdx resp) resp) } := by
    simp only [respStep, calling]
    rfl
  rw [checks, label, checked_shardLabel]

/-! ## What a step keeps -/

theorem Sound.step (sound : Sound s) {act : RespAct η}
    (taken : respStep tid s (t, act) = some s') : Sound s' := by
  cases stepped_of_respStep taken with
  | popped pool idx calling found available top after =>
    subst found after
    have empty : heldBy s.owner s.phase (.thread t) = none := congrArg inHand calling
    obtain ⟨unused, accounts⟩ := sound.accounts.take empty
      (Nat.succ_pred_eq_of_pos available).symm top
    refine ⟨?_, sound.labelled_write (fun place here => unused ⟨.owner place, here⟩) 0,
      sound.phases_write (fun u _ here => unused ⟨.thread u, here⟩) 0 trivial⟩
    rw [heldBy_phase]
    exact accounts
  | starved pool calling found empty after =>
    subst found after
    have same : heldBy s.owner (Function.update s.phase t .fallback) = heldBy s.owner s.phase :=
      heldBy_phase_same calling rfl
    refine ⟨?_, sound.labelled, phases_update (fun u _ => sound.phases u) trivial⟩
    rw [same]
    exact sound.accounts.starve _
  | created shard idx place calling free after =>
    subst after
    have holds : inHand (s.phase t) = some (.pooled shard idx) := congrArg inHand calling
    have empty : heldBy s.owner s.phase (.owner place) = none := free
    obtain ⟨noThread, noOwner⟩ := sound.alone holds
    refine ⟨?_, sound.labelled_put noOwner place, sound.phases_write noThread _ trivial⟩
    rw [heldBy_owner, heldBy_phase]
    exact sound.accounts.move holds empty
  | allocated address place calling fresh free after =>
    subst after
    have empty : heldBy s.owner s.phase (.owner place) = none := free
    have same : heldBy s.owner (Function.update s.phase t .idle) = heldBy s.owner s.phase :=
      heldBy_phase_same calling rfl
    obtain ⟨unused, accounts⟩ := sound.accounts.calloc empty fresh
    refine ⟨?_, sound.labelled_put (fun place' here => unused ⟨.owner place', here⟩) place,
      sound.phases_write (fun u _ here => unused ⟨.thread u, here⟩) _ trivial⟩
    rw [heldBy_owner, same]
    exact accounts
  | failed calling after =>
    subst after
    exact sound.goesOn calling rfl trivial
  | given resp place calling kept after =>
    subst after
    have empty : heldBy s.owner s.phase (.thread t) = none := congrArg inHand calling
    have holds : Holds (heldBy s.owner s.phase) (.owner place) resp := kept
    refine ⟨?_, sound.labelled_give place,
      phases_update (fun u _ => sound.phases u) (sound.labelled place resp kept)⟩
    rw [heldBy_phase, heldBy_owner]
    exact sound.accounts.move holds empty
  | checked resp calling after =>
    subst after
    have label : PhaseOk s.poolShardIdx (.releasing resp) := calling ▸ sound.phases t
    rw [label, checked_shardLabel]
    exact sound.goesOn calling (inHand_destination resp) (phaseOk_destination _ resp)
  | pushed resp shard idx pool calling room after =>
    subst after
    have own : PhaseOk s.poolShardIdx (.pushing resp shard idx) := calling ▸ sound.phases t
    cases own
    have holds : inHand (s.phase t) = some (.pooled shard idx) := congrArg inHand calling
    obtain ⟨noThread, noOwner⟩ := sound.alone holds
    have held : Holds (heldBy s.owner s.phase) (.thread t) (.pooled shard idx) := holds
    obtain ⟨below, accounts⟩ := sound.accounts.push held
    cases room below
    refine ⟨?_, sound.labelled_write noOwner 0, sound.phases_write noThread 0 trivial⟩
    rw [heldBy_phase]
    exact accounts
  | freed address calling after =>
    subst after
    have holds : Holds (heldBy s.owner s.phase) (.thread t) (.heap address) :=
      congrArg inHand calling
    refine ⟨?_, sound.labelled, phases_update (fun u _ => sound.phases u) trivial⟩
    rw [heldBy_phase]
    exact sound.accounts.release holds

theorem sound_of_reach
    (reached : Transition.Reach (respStep tid) Transition.Any ({} : ResponsePools τ η) s) : Sound s :=
  reached.invariant sound_start fun _ _ _ sound _ taken => sound.step taken

/-! ## Every state of every run -/

/-- What holds of the pools between any two steps. -/
structure Consistent (tid : τ → UInt64) (s : ResponsePools τ η) : Prop where
  /-- No response is held by two owners. -/
  oneHolder : Exclusive (Holds (heldBy s.owner s.phase))
  /-- Each stack, as the next call on its pool finds it, lists distinct items, which are all
  those that are not in use. -/
  freeItems : ∀ shard, Divided (heldBy s.owner s.phase) shard (s.shards shard)
  /-- A pooled response that is freed goes on the stack of the pool it lies in, and a block
  from the heap on none. -/
  checks : ∀ t resp, s.phase t = .releasing resp → respStep tid s (t, .check) =
    some { s with phase := Function.update s.phase t (destination resp) }
  pushes : ∀ t resp shard idx, s.phase t = .pushing resp shard idx →
    resp = .pooled shard idx ∧ ∃ s', respStep tid s (t, .push) = some s' ∧
      s'.shards = Function.update s.shards shard
        { s.shards shard with
          freeStack := Function.update (s.shards shard).freeStack (s.shards shard).freeTop idx
          freeTop := (s.shards shard).freeTop + 1 }
  frees : ∀ t resp, s.phase t = .freeing resp → ∃ address, resp = .heap address
  /-- The heap is turned to only by a thread that has found the stack of its pool empty. -/
  callocs : ∀ t address place s', respStep tid s (t, .calloc address place) = some s' →
    s.phase t = .fallback
  fallsBack : ∀ t u act s', respStep tid s (u, act) = some s' → s'.phase t = .fallback →
    s.phase t = .fallback ∨ u = t ∧ act = .acquire ∧
      (responsePoolInitLocked (s.shards (responsePoolShardIndex (tid t)))).freeTop = 0

/-- A thread comes to the fallback in one way. -/
theorem fallback_cases {u : τ} {act : RespAct η} (taken : respStep tid s (u, act) = some s')
    (after : s'.phase t = .fallback) :
    s.phase t = .fallback ∨ u = t ∧ act = .acquire ∧
      (responsePoolInitLocked (s.shards (responsePoolShardIndex (tid t)))).freeTop = 0 := by
  have other {p : RespPhase} (after : Function.update s.phase u p t = .fallback)
      (elsewhere : p ≠ .fallback) : s.phase t = .fallback := by
    rcases Transition.update_cases after with ⟨_, same⟩ | ⟨_, same⟩
    · exact absurd same elsewhere
    · exact same
  cases stepped_of_respStep taken with
  | starved pool calling found empty after' =>
    subst found after'
    rcases Transition.update_cases after with ⟨rfl, _⟩ | ⟨_, same⟩
    · exact .inr ⟨rfl, rfl, empty⟩
    · exact .inl same
  | checked resp calling after' =>
    subst after'
    exact .inl (other after (checked_ne_fallback _ resp))
  | popped | created | allocated | failed | given | pushed | freed =>
    rename_i after'
    subst after'
    exact .inl (other after nofun)

theorem calloc_fallback (taken : respStep tid s (t, .calloc address place) = some s') :
    s.phase t = .fallback := by
  cases stepped_of_respStep taken with
  | allocated _ _ calling => exact calling

theorem Sound.consistent (sound : Sound s) : Consistent tid s where
  oneHolder := sound.accounts.exclusive
  freeItems := sound.accounts.divided
  checks t resp calling := by
    have label : PhaseOk s.poolShardIdx (.releasing resp) := calling ▸ sound.phases t
    exact check_eq label calling
  pushes t resp shard idx calling := by
    have own : PhaseOk s.poolShardIdx (.pushing resp shard idx) := calling ▸ sound.phases t
    cases own
    have held : Holds (heldBy s.owner s.phase) (.thread t) (.pooled shard idx) :=
      congrArg inHand calling
    simp only [respStep, calling, if_pos (sound.accounts.push held).1]
    exact ⟨trivial, _, rfl, rfl⟩
  frees t resp calling := by
    have own : PhaseOk s.poolShardIdx (.freeing resp) := calling ▸ sound.phases t
    exact own
  callocs _ _ _ _ := calloc_fallback
  fallsBack _ _ _ _ := fallback_cases

/-- However the calls interleave, and whichever thread frees a response, the pools stay
consistent. -/
theorem pools_stay_consistent
    (reached : Transition.Reach (respStep tid) Transition.Any ({} : ResponsePools τ η) s) :
    Consistent tid s :=
  (sound_of_reach reached).consistent

end Step

/-- One thread creates a response and another one is about to put it back. -/
theorem pools_stay_consistent_handedOver :
    ∃ s : ResponsePools Bool Bool, s.phase true = .pushing (.pooled 0 0) 0 0 ∧
      Consistent (fun _ => 0) s := by
  have ran : (Transition.run
      (Transition.guarded Transition.Any (respStep fun _ : Bool => 0)) ({} : ResponsePools Bool Bool)
      [(false, .acquire), (false, .create true), (true, .free true), (true, .check)]).map
        (fun s => s.phase true) = some (.pushing (.pooled 0 0) 0 0) := by
    decide +kernel
  obtain ⟨s, reached, pushing⟩ := Transition.exists_reach_of_run ran
  exact ⟨s, pushing, pools_stay_consistent reached⟩

end Miniweb.ResponsePoolProofs
