import Miniweb.Lib.CString
import Miniweb.Lib.SlotScan

/-! `src/http/response_file_cache.c`: the cache of static files. A shard is worked on
under its lock, at the time `now` that is read there; whether `malloc` succeeds is an
argument. The counters that are only logged are left out. -/
namespace Miniweb.Http

open Miniweb.Lib Miniweb.Lib.CString

/-- `FILE_CACHE_SLOTS`. -/
abbrev fileCacheSlots : Nat := 32

/-- The number of candidates, `FILE_CACHE_SLOTS * 2`. -/
abbrev fileCacheCandidates : Nat := fileCacheSlots * 2

/-- `FILE_CACHE_MAX_BYTES`. -/
abbrev fileCacheMaxBytes : Nat := 256 * 1024

/-- `FILE_CACHE_INSERTS_PER_SEC`. -/
abbrev fileCacheInsertsPerSec : Int := 8

/-- `FILE_CACHE_MAX_AGE_SEC`. -/
abbrev fileCacheMaxAgeSec : Int := 240

/-- `FILE_CACHE_SHARDS`. -/
abbrev fileCacheShards : Nat := 16

/-- The fields of `struct stat` that are read. -/
structure Stat where
  size : Int
  mtime : Int
  deriving DecidableEq, Repr

/-- `file_cache_entry_t`; the slot is empty when its path is. -/
structure FileCacheEntry where
  path : Bytes := []
  data : Option Bytes := none
  len : Nat := 0
  mtime : Int := 0
  atime : Int := 0
  deriving DecidableEq, Repr

/-- `file_cache_candidate_t`; the slot is empty when its path is. -/
structure FileCacheCandidate where
  path : Bytes := []
  hits : UInt32 := 0
  atime : Int := 0
  deriving DecidableEq, Repr

/-- `file_cache_shard_t`, as `file_cache_init_shards` leaves it. -/
structure FileCacheShard where
  entries : Fin fileCacheSlots → FileCacheEntry := fun _ => {}
  candidates : Fin fileCacheCandidates → FileCacheCandidate := fun _ => {}
  cacheInsertTokens : Int := fileCacheInsertsPerSec
  cacheInsertWindow : Int := 0

/-- `file_cache_shards`. -/
abbrev FileCache := Fin fileCacheShards → FileCacheShard

/-- `file_cache_shard_index`. -/
def fileCacheShardIndex (path : Bytes) : Fin fileCacheShards :=
  let hash := path.foldl (fun (hash : UInt64) c => (hash ^^^ c.toUInt64) * 1099511628211)
    1469598103934665603
  ⟨hash.toNat % fileCacheShards, Nat.mod_lt _ (by decide)⟩

/-- `file_cache_refill_budget_locked`. -/
def fileCacheRefillBudgetLocked (shard : FileCacheShard) (now : Int) : FileCacheShard :=
  if shard.cacheInsertWindow = 0 ∨ now ≠ shard.cacheInsertWindow then
    { shard with cacheInsertWindow := now, cacheInsertTokens := fileCacheInsertsPerSec }
  else shard

/-- The test of `file_cache_evict_stale_locked` on a slot in use. -/
def staleAt (now : Int) (path : Bytes) (atime : Int) : Bool :=
  path ≠ [] && decide (now - atime > fileCacheMaxAgeSec)

/-- `file_cache_evict_stale_locked`. -/
def fileCacheEvictStaleLocked (shard : FileCacheShard) (now : Int) : FileCacheShard :=
  { shard with
    entries := fun i =>
      let entry := shard.entries i
      if staleAt now entry.path entry.atime then {} else entry
    candidates := fun i =>
      let candidate := shard.candidates i
      if staleAt now candidate.path candidate.atime then {} else candidate }

/-- The loop of `file_cache_admit_locked`; `oldest` is the time of the slot it has. -/
def candidateScan (shard : FileCacheShard) (path : Bytes) : SlotScan.End fileCacheCandidates :=
  SlotScan.scan (fun i => (shard.candidates i).path = []) (fun i => (shard.candidates i).path = path)
    (fun i => (shard.candidates i).atime) none (List.finRange fileCacheCandidates)

/-- `file_cache_admit_locked`. -/
def fileCacheAdmitLocked (shard : FileCacheShard) (path : Bytes) (now : Int) :
    Bool × FileCacheShard :=
  match candidateScan shard path with
  | .found i =>
    let candidate := shard.candidates i
    let hits := candidate.hits + 1
    (2 ≤ hits,
      { shard with
        candidates := Function.update shard.candidates i { candidate with hits, atime := now } })
  | .slot none => (false, shard)
  | .slot (some i) =>
    let candidate := { path := strlcpy 512 path, hits := 1, atime := now }
    (false, { shard with candidates := Function.update shard.candidates i candidate })

/-- The loop of `http_file_cache_store` over the entries, which looks for no path. -/
def entryScan (shard : FileCacheShard) : SlotScan.End fileCacheSlots :=
  SlotScan.scan (fun i => (shard.entries i).path = []) (fun _ => false)
    (fun i => (shard.entries i).atime) none (List.finRange fileCacheSlots)

/-- How a store that has the lock ends. -/
inductive StoreEnd where
  | throttled
  | notAdmitted
  /-- No slot: not taken, since there are slots. -/
  | noSlot
  | inserted (slot : Fin fileCacheSlots)
  /-- `malloc` failed and the slot was cleared. -/
  | cleared (slot : Fin fileCacheSlots)
  deriving DecidableEq, Repr

/-- `http_file_cache_store` behind the test of the budget and the filter: a slot is
chosen and written. -/
def fileCacheInsert (shard : FileCacheShard) (path : Bytes) (st : Stat) (data : Bytes) (len : Nat)
    (now : Int) (malloc : Bool) : StoreEnd × FileCacheShard :=
  match entryScan shard with
  | .found _ => (.noSlot, shard)
  | .slot none => (.noSlot, shard)
  | .slot (some i) =>
    let shard := { shard with cacheInsertTokens := shard.cacheInsertTokens - 1 }
    if malloc then
      let entry :=
        { path := strlcpy 512 path, data := some (data.take len), len, mtime := st.mtime,
          atime := now }
      (.inserted i, { shard with entries := Function.update shard.entries i entry })
    else (.cleared i, { shard with entries := Function.update shard.entries i {} })

/-- The shard when a call has the lock and has read the clock: with its budget for this
second, and without what is too old. -/
def fileCacheEnter (shard : FileCacheShard) (now : Int) : FileCacheShard :=
  fileCacheEvictStaleLocked (fileCacheRefillBudgetLocked shard now) now

/-- `http_file_cache_store` under the lock of the shard. -/
def fileCacheStoreLocked (shard : FileCacheShard) (path : Bytes) (st : Stat) (data : Bytes)
    (len : Nat) (now : Int) (malloc : Bool) : StoreEnd × FileCacheShard :=
  let shard := fileCacheEnter shard now
  if shard.cacheInsertTokens ≤ 0 then (.throttled, shard)
  else
    let (admitted, shard) := fileCacheAdmitLocked shard path now
    if !admitted then (.notAdmitted, shard)
    else fileCacheInsert shard path st data len now malloc

/-- The lengths `http_file_cache_store` does not refuse at once. -/
def storable (len : Nat) : Bool := !(len = 0 || fileCacheMaxBytes < len)

/-- `http_file_cache_store`. -/
def httpFileCacheStore (cache : FileCache) (path : Bytes) (st : Stat) (data : Bytes) (len : Nat)
    (now : Int) (malloc : Bool) : FileCache :=
  if storable len then
    let shardIdx := fileCacheShardIndex path
    Function.update cache shardIdx
      (fileCacheStoreLocked (cache shardIdx) path st data len now malloc).2
  else cache

/-- The entry the loop of `http_file_cache_lookup` stops at. -/
def entryFor (shard : FileCacheShard) (path : Bytes) (st : Stat) : Option (Fin fileCacheSlots) :=
  (List.finRange fileCacheSlots).find? fun i =>
    let entry := shard.entries i
    entry.path ≠ [] && entry.path = path && entry.mtime = st.mtime

/-- A hit: the slot, and what `*out` and `*out_len` are set to. -/
structure FileCacheHit where
  slot : Fin fileCacheSlots
  out : Bytes
  outLen : Nat
  deriving DecidableEq, Repr

/-- `http_file_cache_lookup` under the lock of the shard. -/
def fileCacheLookupLocked (shard : FileCacheShard) (path : Bytes) (st : Stat) (now : Int)
    (malloc : Bool) : Option FileCacheHit × FileCacheShard :=
  let shard := fileCacheEnter shard now
  match entryFor shard path st with
  | none => (none, shard)
  | some i =>
    let entry := shard.entries i
    if malloc then
      (some { slot := i, out := (entry.data.getD []).take entry.len, outLen := entry.len },
        { shard with entries := Function.update shard.entries i { entry with atime := now } })
    else (none, shard)

/-- The files `http_file_cache_lookup` does not refuse at once. -/
def cacheable (st : Stat) : Bool := !(st.size ≤ 0 || fileCacheMaxBytes < st.size.toNat)

/-- `http_file_cache_lookup`: 0, or 1 with what it found; and the cache afterwards. -/
def httpFileCacheLookup (cache : FileCache) (path : Bytes) (st : Stat) (now : Int) (malloc : Bool) :
    Option FileCacheHit × FileCache :=
  if cacheable st then
    let shardIdx := fileCacheShardIndex path
    let (hit, shard) := fileCacheLookupLocked (cache shardIdx) path st now malloc
    (hit, Function.update cache shardIdx shard)
  else (none, cache)

/-! ## Runs

A call with the clock it reads and the answer of its `malloc`. What the runs below keep
besides the cache is read by no call. -/

inductive FileCacheCall where
  /-- `http_file_cache_store` of these bytes, as many as there are. -/
  | store (path : Bytes) (st : Stat) (data : Bytes) (now : Int) (malloc : Bool)
  | lookup (path : Bytes) (st : Stat) (now : Int) (malloc : Bool)
  deriving DecidableEq, Repr

/-- The path of a call. -/
def FileCacheCall.path : FileCacheCall → Bytes
  | .store path _ _ _ _ => path
  | .lookup path _ _ _ => path

/-- What a store was called with. -/
structure StoreCall where
  path : Bytes
  mtime : Int
  data : Bytes
  deriving DecidableEq, Repr

/-- An entry was made in a slot of a shard, or found there. -/
inductive FileCacheEvent where
  | stored (shard : Fin fileCacheShards) (slot : Fin fileCacheSlots) (call : StoreCall) (now : Int)
  | hit (shard : Fin fileCacheShards) (slot : Fin fileCacheSlots) (now : Int)
  deriving DecidableEq, Repr

/-- The cache, and what happened to its entries, latest first. -/
structure FileCacheRun where
  cache : FileCache := fun _ => {}
  journal : List FileCacheEvent := []

/-- One call. -/
def fileCacheStep (s : FileCacheRun) : FileCacheCall → Option FileCacheRun
  | .store path st data now malloc =>
    let shard := fileCacheShardIndex path
    let cache := httpFileCacheStore s.cache path st data data.length now malloc
    if storable data.length then
      match (fileCacheStoreLocked (s.cache shard) path st data data.length now malloc).1 with
      | .inserted slot =>
        let call := { path, mtime := st.mtime, data }
        some { cache, journal := .stored shard slot call now :: s.journal }
      | _ => some { s with cache }
    else some { s with cache }
  | .lookup path st now malloc =>
    let (hit, cache) := httpFileCacheLookup s.cache path st now malloc
    match hit with
    | some hit =>
      some { cache, journal := .hit (fileCacheShardIndex path) hit.slot now :: s.journal }
    | none => some { s with cache }

/-- The store that made the last entry in a slot, and when that entry was stored or last
found. -/
def lastTouch (shard : Fin fileCacheShards) (slot : Fin fileCacheSlots) :
    List FileCacheEvent → Option (StoreCall × Int)
  | [] => none
  | .stored shard' slot' call now :: earlier =>
    if shard' = shard ∧ slot' = slot then some (call, now) else lastTouch shard slot earlier
  | .hit shard' slot' now :: earlier =>
    if shard' = shard ∧ slot' = slot then
      (lastTouch shard slot earlier).map fun (call, _) => (call, now)
    else lastTouch shard slot earlier

/-- A store that got as far as the admission filter: whether the record of its path was
still there, and whether it was admitted. -/
structure FilterAttempt where
  path : Bytes
  recorded : Bool
  admitted : Bool
  deriving DecidableEq, Repr

/-- One shard with the last time it was used at. `recorded` is the candidate slot the last
attempt for a path used, until that slot ages out or is given to another path;
`attempts` and `inserts` are the stores that reached the filter, and the entries made
with their time, latest first. -/
structure FileCacheShardRun where
  shard : FileCacheShard := {}
  clock : Option Int := none
  recorded : Bytes → Option (Fin fileCacheCandidates) := fun _ => none
  attempts : List FilterAttempt := []
  inserts : List (Bytes × Int) := []

/-- The records that are not too old. -/
def FileCacheShardRun.fresh (s : FileCacheShardRun) (now : Int) (path : Bytes) :
    Option (Fin fileCacheCandidates) :=
  (s.recorded path).filter fun i =>
    !staleAt now (s.shard.candidates i).path (s.shard.candidates i).atime

/-- The slot a scan of the candidates leads to. -/
def candidateSlot : SlotScan.End fileCacheCandidates → Option (Fin fileCacheCandidates)
  | .found i => some i
  | .slot i => i

/-- The attempt for `path` uses `slot`. -/
def recordAt (recorded : Bytes → Option (Fin fileCacheCandidates)) (path : Bytes)
    (slot : Option (Fin fileCacheCandidates)) (other : Bytes) : Option (Fin fileCacheCandidates) :=
  if other = path then slot else if recorded other = slot then none else recorded other

/-- One call on a shard, for a path that belongs there. -/
def fileCacheShardCall (s : FileCacheShardRun) : FileCacheCall → FileCacheShardRun
  | .store path st data now malloc =>
    if storable data.length then
      let (ended, shard) := fileCacheStoreLocked s.shard path st data data.length now malloc
      let clock := some now
      if ended = .throttled then { s with shard, clock, recorded := s.fresh now }
      else
        let slot := candidateSlot (candidateScan (fileCacheEnter s.shard now) path)
        let attempt :=
          { path, recorded := (s.fresh now path).isSome, admitted := ended ≠ .notAdmitted }
        { shard, clock
          recorded := recordAt (s.fresh now) path slot
          attempts := attempt :: s.attempts
          inserts := match ended with
            | .inserted _ => (path, now) :: s.inserts
            | _ => s.inserts }
    else s
  | .lookup path st now malloc =>
    if cacheable st then
      let shard := (fileCacheLookupLocked s.shard path st now malloc).2
      { s with shard, clock := some now, recorded := s.fresh now }
    else s

/-- One call on the shard of this index; the paths of other shards do not get here. -/
def fileCacheShardStep (index : Fin fileCacheShards) (s : FileCacheShardRun) (call : FileCacheCall) :
    Option FileCacheShardRun :=
  if fileCacheShardIndex call.path = index then some (fileCacheShardCall s call) else none

end Miniweb.Http
