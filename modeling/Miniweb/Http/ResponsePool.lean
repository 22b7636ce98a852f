import Mathlib

/-! `src/http/response_pool.c` with `http_response_create` and `http_response_free`: the
pools that responses come from. Threads run `http_response_create` and
`http_response_free` in any order; each step is a section under one pool's lock, or an
access outside the locks. -/
namespace Miniweb.Http

/-- `RESPONSE_POOL_SHARDS`. -/
abbrev responsePoolShards : Nat := 16

/-- The length of `items[]` and `free_stack[]`. -/
abbrev responsePoolItems : Nat := 1024

/-- `response_pool_t`; the default value is the zeroed one. Entries of `freeStack` from
`responsePoolItems` on do not exist in the source. -/
structure ResponsePool where
  freeStack : Nat → Fin responsePoolItems := fun _ => 0
  freeTop : Nat := 0
  initialized : Bool := false

/-- `thread_hash` of a `pthread_self()`. -/
def threadHash (tid : UInt64) : UInt64 := tid ^^^ (tid >>> 7) ^^^ (tid >>> 13)

/-- `response_pool_shard_index`. -/
def responsePoolShardIndex (tid : UInt64) : Fin responsePoolShards :=
  ⟨(threadHash tid).toNat % responsePoolShards, Nat.mod_lt _ (by decide)⟩

/-- `response_pool_init_locked`. -/
def responsePoolInitLocked (pool : ResponsePool) : ResponsePool :=
  if pool.initialized then pool
  else
    { freeStack := fun i => ⟨1023 - i, Nat.lt_of_le_of_lt (Nat.sub_le _ _) (by decide)⟩
      freeTop := 1024
      initialized := true }

/-- An `http_response_t *`: into a pool's `items[]`, or from `calloc`. -/
inductive Resp where
  | pooled (shard : Fin responsePoolShards) (idx : Fin responsePoolItems)
  | heap (address : Nat)
  deriving DecidableEq, Repr

/-- `resp - pool->items`, when the pointer is inside `items[]`. -/
def Resp.itemOf (shard : Fin responsePoolShards) : Resp → Option (Fin responsePoolItems)
  | .pooled shard' idx => if shard = shard' then some idx else none
  | .heap _ => none

/-- Where a thread is. -/
inductive RespPhase where
  | idle
  /-- In `http_response_pool_acquire`, behind the unlock with an item. -/
  | popped (shard : Fin responsePoolShards) (idx : Fin responsePoolItems)
  /-- In `http_response_create`, where `http_response_pool_acquire` has returned NULL. -/
  | fallback
  /-- In `http_response_pool_release`, in front of the check of `pool_shard_idx`. -/
  | releasing (resp : Resp)
  /-- In front of the lock. -/
  | pushing (resp : Resp) (shard : Fin responsePoolShards) (idx : Fin responsePoolItems)
  /-- In `http_response_free`, in front of `free`. -/
  | freeing (resp : Resp)
  deriving DecidableEq, Repr

/-- The pools, the field `pool_shard_idx` of every response, the heap blocks in use, the
places `η` where callers keep responses, and the threads `τ`. -/
structure ResponsePools (τ η : Type) where
  shards : Fin responsePoolShards → ResponsePool := fun _ => {}
  poolShardIdx : Resp → Int := fun _ => 0
  heap : Nat → Bool := fun _ => false
  owner : η → Option Resp := fun _ => none
  phase : τ → RespPhase := fun _ => .idle

/-- What a thread does next. -/
inductive RespAct (η : Type) where
  /-- `http_response_create` and the locked section of `http_response_pool_acquire`. -/
  | acquire
  /-- `resp->pool_shard_idx = shard_idx`, and the response is returned to a place. -/
  | create (place : η)
  /-- `calloc` returns this address, and the response is returned to a place. -/
  | calloc (address : Nat) (place : η)
  | callocFails
  /-- `http_response_free` of the response at this place. -/
  | free (place : η)
  /-- The checks of `http_response_pool_release`. -/
  | check
  /-- Its locked section. -/
  | push
  /-- `free`. -/
  | heapFree
  deriving DecidableEq

variable {τ η : Type} [DecidableEq τ] [DecidableEq η]

/-- One step of a thread. A place takes a response only while it is empty, and gives it up
to `http_response_free`; `calloc` returns a block that is not in use, and `free` of a
pointer into a pool has no meaning. -/
def respStep (tid : τ → UInt64) (s : ResponsePools τ η) : τ × RespAct η → Option (ResponsePools τ η)
  | (t, act) =>
    match s.phase t, act with
    | .idle, .acquire =>
      let shard := responsePoolShardIndex (tid t)
      let pool := responsePoolInitLocked (s.shards shard)
      if 0 < pool.freeTop then
        let idx := pool.freeStack (pool.freeTop - 1)
        some
          { s with
            shards := Function.update s.shards shard { pool with freeTop := pool.freeTop - 1 }
            poolShardIdx := Function.update s.poolShardIdx (.pooled shard idx) 0
            phase := Function.update s.phase t (.popped shard idx) }
      else
        some
          { s with
            shards := Function.update s.shards shard pool
            phase := Function.update s.phase t .fallback }
    | .popped shard idx, .create place =>
      if s.owner place = none then
        some
          { s with
            poolShardIdx := Function.update s.poolShardIdx (.pooled shard idx) shard
            owner := Function.update s.owner place (some (.pooled shard idx))
            phase := Function.update s.phase t .idle }
      else none
    | .fallback, .calloc address place =>
      if s.heap address = false ∧ s.owner place = none then
        some
          { s with
            poolShardIdx := Function.update s.poolShardIdx (.heap address) (-1)
            heap := Function.update s.heap address true
            owner := Function.update s.owner place (some (.heap address))
            phase := Function.update s.phase t .idle }
      else none
    | .fallback, .callocFails => some { s with phase := Function.update s.phase t .idle }
    | .idle, .free place =>
      (s.owner place).map fun resp =>
        { s with
          owner := Function.update s.owner place none
          phase := Function.update s.phase t (.releasing resp) }
    | .releasing resp, .check =>
      let shardIdx := s.poolShardIdx resp
      let phase :=
        if inRange : 0 ≤ shardIdx ∧ shardIdx.toNat < responsePoolShards then
          let shard := ⟨shardIdx.toNat, inRange.2⟩
          match resp.itemOf shard with
          | some idx => .pushing resp shard idx
          | none => .freeing resp
        else .freeing resp
      some { s with phase := Function.update s.phase t phase }
    | .pushing resp shard idx, .push =>
      let pool := s.shards shard
      let pool :=
        if pool.freeTop < 1024 then
          { pool with
            freeStack := Function.update pool.freeStack pool.freeTop idx
            freeTop := pool.freeTop + 1 }
        else pool
      some
        { s with
          shards := Function.update s.shards shard pool
          poolShardIdx := Function.update s.poolShardIdx resp 0
          phase := Function.update s.phase t .idle }
    | .freeing (.heap address), .heapFree =>
      some
        { s with
          heap := Function.update s.heap address false
          phase := Function.update s.phase t .idle }
    | _, _ => none

end Miniweb.Http
