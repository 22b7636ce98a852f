import Miniweb.Http.FileCache
import Miniweb.Lib.Transition

/-! What the file cache returns. An entry is written whole by one store; after that
only its time changes, until the slot is cleared or written again. So every slot in use
has the bytes of the store that last wrote it, and a call sees none that was not touched
for longer than the age limit. -/
namespace Miniweb.FileCacheProofs

open Miniweb.Lib Miniweb.Lib.CString Miniweb.Http

variable {shard : FileCacheShard} {path data : Bytes} {st : Stat} {len : Nat} {now : Int}
  {malloc : Bool}

/-! ## One call on a shard -/

@[simp] theorem refill_entries :
    (fileCacheRefillBudgetLocked shard now).entries = shard.entries := by
  unfold fileCacheRefillBudgetLocked
  split <;> rfl

@[simp] theorem refill_candidates :
    (fileCacheRefillBudgetLocked shard now).candidates = shard.candidates := by
  unfold fileCacheRefillBudgetLocked
  split <;> rfl

/-- A call finds an entry as it was, or cleared because it is too old. -/
theorem enter_entries (shard : FileCacheShard) (now : Int) (i : Fin fileCacheSlots) :
    (fileCacheEnter shard now).entries i = {} ∨
      ((fileCacheEnter shard now).entries i = shard.entries i ∧
        ((shard.entries i).path ≠ [] → now - (shard.entries i).atime ≤ fileCacheMaxAgeSec)) := by
  simp only [fileCacheEnter, fileCacheEvictStaleLocked, refill_entries]
  split
  · exact .inl rfl
  · rename_i kept
    refine .inr ⟨rfl, fun used => ?_⟩
    simpa [staleAt, used] using kept

@[simp] theorem admit_entries :
    (fileCacheAdmitLocked shard path now).2.entries = shard.entries := by
  unfold fileCacheAdmitLocked
  split <;> rfl

@[simp] theorem admit_tokens :
    (fileCacheAdmitLocked shard path now).2.cacheInsertTokens = shard.cacheInsertTokens := by
  unfold fileCacheAdmitLocked
  split <;> rfl

@[simp] theorem admit_window :
    (fileCacheAdmitLocked shard path now).2.cacheInsertWindow = shard.cacheInsertWindow := by
  unfold fileCacheAdmitLocked
  split <;> rfl

/-- The entry a store makes. -/
def madeEntry (path : Bytes) (st : Stat) (data : Bytes) (len : Nat) (now : Int) : FileCacheEntry :=
  { path := strlcpy 512 path, data := some (data.take len), len, mtime := st.mtime, atime := now }

/-- Everything that can become of a store that has the lock: it is throttled, turned away
by the filter, or admitted; then it takes a token and writes or clears a slot. -/
inductive Stores (shard : FileCacheShard) (path : Bytes) (st : Stat) (data : Bytes) (len : Nat)
    (now : Int) : StoreEnd → FileCacheShard → Prop where
  | throttled (spent : (fileCacheEnter shard now).cacheInsertTokens ≤ 0) :
      Stores shard path st data len now .throttled (fileCacheEnter shard now)
  | notAdmitted (some : 0 < (fileCacheEnter shard now).cacheInsertTokens)
      (turnedAway : (fileCacheAdmitLocked (fileCacheEnter shard now) path now).1 = false) :
      Stores shard path st data len now .notAdmitted
        (fileCacheAdmitLocked (fileCacheEnter shard now) path now).2
  | noSlot (some : 0 < (fileCacheEnter shard now).cacheInsertTokens)
      (admitted : (fileCacheAdmitLocked (fileCacheEnter shard now) path now).1 = true) :
      Stores shard path st data len now .noSlot
        (fileCacheAdmitLocked (fileCacheEnter shard now) path now).2
  | inserted (i : Fin fileCacheSlots) (some : 0 < (fileCacheEnter shard now).cacheInsertTokens)
      (admitted : (fileCacheAdmitLocked (fileCacheEnter shard now) path now).1 = true) :
      Stores shard path st data len now (.inserted i)
        { entries :=
            Function.update (fileCacheEnter shard now).entries i (madeEntry path st data len now)
          candidates := (fileCacheAdmitLocked (fileCacheEnter shard now) path now).2.candidates
          cacheInsertTokens := (fileCacheEnter shard now).cacheInsertTokens - 1
          cacheInsertWindow := (fileCacheEnter shard now).cacheInsertWindow }
  | cleared (i : Fin fileCacheSlots) (some : 0 < (fileCacheEnter shard now).cacheInsertTokens)
      (admitted : (fileCacheAdmitLocked (fileCacheEnter shard now) path now).1 = true) :
      Stores shard path st data len now (.cleared i)
        { entries := Function.update (fileCacheEnter shard now).entries i {}
          candidates := (fileCacheAdmitLocked (fileCacheEnter shard now) path now).2.candidates
          cacheInsertTokens := (fileCacheEnter shard now).cacheInsertTokens - 1
          cacheInsertWindow := (fileCacheEnter shard now).cacheInsertWindow }

theorem fileCacheStoreLocked_cases (shard : FileCacheShard) (path : Bytes) (st : Stat) (data : Bytes)
    (len : Nat) (now : Int) (malloc : Bool) :
    Stores shard path st data len now
      (fileCacheStoreLocked shard path st data len now malloc).1
      (fileCacheStoreLocked shard path st data len now malloc).2 := by
  unfold fileCacheStoreLocked
  simp only []
  split
  · rename_i spent
    exact .throttled spent
  · rename_i some
    cases admitted : (fileCacheAdmitLocked (fileCacheEnter shard now) path now).1 with
    | false => exact .notAdmitted (not_le.mp some) admitted
    | true =>
      simp only [Bool.not_true, Bool.false_eq_true, if_false, fileCacheInsert]
      split
      · exact .noSlot (not_le.mp some) admitted
      · exact .noSlot (not_le.mp some) admitted
      · rename_i i _
        split
        · simpa [madeEntry] using Stores.inserted i (not_le.mp some) admitted
        · simpa using Stores.cleared i (not_le.mp some) admitted

/-- The entry a lookup stops at has the path and the modification time. -/
theorem entryFor_eq_some {i : Fin fileCacheSlots} (found : entryFor shard path st = some i) :
    (shard.entries i).path ≠ [] ∧ (shard.entries i).path = path ∧
      (shard.entries i).mtime = st.mtime := by
  have here := List.find?_some found
  simpa [and_assoc] using here

/-- The hit on an entry. -/
def hitAt (shard : FileCacheShard) (slot : Fin fileCacheSlots) : FileCacheHit :=
  { slot
    out := ((shard.entries slot).data.getD []).take (shard.entries slot).len
    outLen := (shard.entries slot).len }

/-- A lookup on a shard leaves the entries it finds alone, or hits an entry that was there
and sets its time. -/
inductive Looks (shard : FileCacheShard) (path : Bytes) (st : Stat) (now : Int) :
    Option FileCacheHit → FileCacheShard → Prop where
  | missed : Looks shard path st now none (fileCacheEnter shard now)
  | hit (slot : Fin fileCacheSlots) (used : (shard.entries slot).path ≠ [])
      (samePath : (shard.entries slot).path = path)
      (sameMtime : (shard.entries slot).mtime = st.mtime)
      (recent : now - (shard.entries slot).atime ≤ fileCacheMaxAgeSec) :
      Looks shard path st now (some (hitAt shard slot))
        { fileCacheEnter shard now with
          entries := Function.update (fileCacheEnter shard now).entries slot
            { shard.entries slot with atime := now } }

theorem fileCacheLookupLocked_cases (shard : FileCacheShard) (path : Bytes) (st : Stat) (now : Int)
    (malloc : Bool) :
    Looks shard path st now (fileCacheLookupLocked shard path st now malloc).1
      (fileCacheLookupLocked shard path st now malloc).2 := by
  unfold fileCacheLookupLocked
  simp only []
  split
  · exact .missed
  · rename_i slot found
    obtain ⟨used, samePath, sameMtime⟩ := entryFor_eq_some found
    split
    · rcases enter_entries shard now slot with cleared | ⟨same, recent⟩
      · rw [cleared] at used
        exact absurd rfl used
      · rw [same] at used samePath sameMtime ⊢
        exact .hit slot used samePath sameMtime (recent used)
    · exact .missed

/-! ## Runs -/

/-- The entry is what the store wrote, at the time it was last touched. -/
structure Written (entry : FileCacheEntry) (call : StoreCall) (touched : Int) : Prop where
  path : entry.path = call.path
  mtime : entry.mtime = call.mtime
  data : entry.data = some call.data
  len : entry.len = call.data.length
  atime : entry.atime = touched

/-- The slot an event is about. -/
def place : FileCacheEvent → Fin fileCacheShards × Fin fileCacheSlots
  | .stored shard slot _ _ => (shard, slot)
  | .hit shard slot _ => (shard, slot)

/-- An event at another slot changes nothing. -/
theorem lastTouch_other {event : FileCacheEvent} {shard : Fin fileCacheShards}
    {slot : Fin fileCacheSlots} (other : place event ≠ (shard, slot))
    (journal : List FileCacheEvent) :
    lastTouch shard slot (event :: journal) = lastTouch shard slot journal := by
  have apart {shard' slot'} (here : place event = (shard', slot')) :
      ¬ (shard' = shard ∧ slot' = slot) := by
    rintro ⟨rfl, rfl⟩
    exact other here
  cases event with
  | stored shard' slot' call now =>
    simp only [lastTouch]
    rw [if_neg (apart rfl)]
  | hit shard' slot' now =>
    simp only [lastTouch]
    rw [if_neg (apart rfl)]

/-- Every slot in use is accounted for in the journal. -/
def Accounted (cache : FileCache) (journal : List FileCacheEvent) : Prop :=
  ∀ shard slot, ((cache shard).entries slot).path ≠ [] →
    ∃ call touched, lastTouch shard slot journal = some (call, touched) ∧
      Written ((cache shard).entries slot) call touched

variable {cache : FileCache} {journal : List FileCacheEvent} {shardIdx : Fin fileCacheShards}
  {slot : Fin fileCacheSlots} {entry : FileCacheEntry}

/-- What is left of the entries of a shard: each is as it was or cleared. -/
def Remains (shard' : FileCacheShard) (entries : Fin fileCacheSlots → FileCacheEntry) : Prop :=
  ∀ i, shard'.entries i = {} ∨ shard'.entries i = entries i

theorem remains_enter (shard : FileCacheShard) (now : Int) :
    Remains (fileCacheEnter shard now) shard.entries := by
  intro i
  rcases enter_entries shard now i with cleared | ⟨same, _⟩
  · exact .inl cleared
  · exact .inr same

/-- Clearing entries needs no account. -/
private theorem Accounted.kept (accounted : Accounted cache journal) {shard' : FileCacheShard}
    (remains : Remains shard' (cache shardIdx).entries) :
    Accounted (Function.update cache shardIdx shard') journal := by
  intro si i used
  by_cases here : si = shardIdx
  · subst here
    rw [Function.update_self] at used ⊢
    rcases remains i with empty | same
    · rw [empty] at used
      exact absurd rfl used
    · rw [same] at used ⊢
      exact accounted si i used
  · rw [Function.update_of_ne here] at used ⊢
    exact accounted si i used

/-- One slot is written or found, and the journal says so. -/
private theorem Accounted.touch (accounted : Accounted cache journal)
    (slot : Fin fileCacheSlots) (call : StoreCall) (touched : Int) {shard' : FileCacheShard}
    {event : FileCacheEvent}
    (remains : ∀ i ≠ slot, shard'.entries i = {} ∨ shard'.entries i = (cache shardIdx).entries i)
    (last : lastTouch shardIdx slot (event :: journal) = some (call, touched))
    (placed : place event = (shardIdx, slot))
    (written : Written (shard'.entries slot) call touched) :
    Accounted (Function.update cache shardIdx shard') (event :: journal) := by
  intro si i used
  by_cases here : (si, i) = (shardIdx, slot)
  · cases here
    rw [Function.update_self]
    exact ⟨call, touched, last, written⟩
  · rw [lastTouch_other (placed ▸ Ne.symm here)]
    by_cases sameShard : si = shardIdx
    · subst sameShard
      rw [Function.update_self] at used ⊢
      rcases remains i (fun same => here (by rw [same])) with empty | same
      · rw [empty] at used
        exact absurd rfl used
      · rw [same] at used ⊢
        exact accounted si i used
    · rw [Function.update_of_ne sameShard] at used ⊢
      exact accounted si i used

/-- The paths fit the arrays they are copied into. -/
def PathsFit (_ : FileCacheRun) : FileCacheCall → Prop
  | .store path _ _ _ _ => path.length < 512
  | .lookup path _ _ _ => path.length < 512

instance (s : FileCacheRun) : (call : FileCacheCall) → Decidable (PathsFit s call)
  | .store path _ _ _ _ => inferInstanceAs (Decidable (path.length < 512))
  | .lookup path _ _ _ => inferInstanceAs (Decidable (path.length < 512))

theorem strlcpy_of_fits {size : Nat} (fits : path.length < size) : strlcpy size path = path := by
  apply List.take_of_length_le
  omega

variable {s t : FileCacheRun}

private theorem accounted_store (accounted : Accounted s.cache s.journal) (fits : path.length < 512)
    (taken : fileCacheStep s (.store path st data now malloc) = some t) :
    Accounted t.cache t.journal := by
  simp only [fileCacheStep, httpFileCacheStore] at taken
  split at taken
  · have cases := fileCacheStoreLocked_cases (s.cache (fileCacheShardIndex path)) path st data
      data.length now malloc
    revert cases taken
    generalize fileCacheStoreLocked (s.cache (fileCacheShardIndex path)) path st data data.length now
      malloc = result
    obtain ⟨ended, shard'⟩ := result
    intro taken cases
    have entered := remains_enter (s.cache (fileCacheShardIndex path)) now
    cases cases with
    | throttled =>
      cases taken
      exact accounted.kept entered
    | notAdmitted =>
      cases taken
      exact accounted.kept fun i => by simpa using entered i
    | noSlot =>
      cases taken
      exact accounted.kept fun i => by simpa using entered i
    | inserted slot =>
      cases taken
      refine accounted.touch slot ⟨path, st.mtime, data⟩ now ?_ ?_ ?_ ?_
      · intro i other
        simp only [Function.update_of_ne other]
        exact entered i
      · simp [lastTouch]
      · rfl
      · simp only [Function.update_self, madeEntry]
        refine ⟨strlcpy_of_fits fits, rfl, ?_, rfl, rfl⟩
        simp
    | cleared slot =>
      cases taken
      apply accounted.kept
      intro i
      by_cases here : i = slot
      · subst here
        exact .inl (Function.update_self ..)
      · simp only [Function.update_of_ne here]
        exact entered i
  · cases taken
    exact accounted

private theorem accounted_lookup (accounted : Accounted s.cache s.journal)
    (taken : fileCacheStep s (.lookup path st now malloc) = some t) :
    Accounted t.cache t.journal := by
  have entered := remains_enter (s.cache (fileCacheShardIndex path)) now
  simp only [fileCacheStep, httpFileCacheLookup] at taken
  by_cases looks : cacheable st = true
  · simp only [looks, if_true] at taken
    have cases := fileCacheLookupLocked_cases (s.cache (fileCacheShardIndex path)) path st now malloc
    revert cases taken
    generalize fileCacheLookupLocked (s.cache (fileCacheShardIndex path)) path st now malloc = result
    obtain ⟨hit, shard'⟩ := result
    intro taken cases
    cases cases with
    | missed =>
      cases taken
      exact accounted.kept entered
    | hit slot used =>
      cases taken
      obtain ⟨call, touched, last, written⟩ := accounted _ slot used
      refine accounted.touch slot call now ?_ ?_ ?_ ?_
      · intro i other
        simp only [Function.update_of_ne other]
        exact entered i
      · simp [lastTouch, hitAt, last]
      · rfl
      · simp only [Function.update_self]
        exact { written with atime := rfl }
  · simp only [looks] at taken
    cases taken
    exact accounted

theorem accounted_of_reach (reached : Transition.Reach fileCacheStep PathsFit {} s) :
    Accounted s.cache s.journal := by
  refine reached.invariant (P := fun s => Accounted s.cache s.journal) ?_ ?_
  · intro shard slot used
    exact absurd rfl used
  · intro s call t accounted allowed taken
    cases call with
    | store path st data now malloc => exact accounted_store accounted allowed taken
    | lookup path st now malloc => exact accounted_lookup accounted taken

/-- In every run of stores and lookups, a lookup that hits returns the bytes and the length
of the store that last wrote the slot; that store was for the same path and the same
modification time, and its entry was stored or found at most 240 seconds before. -/
theorem hit_returns_stored_bytes {hit : FileCacheHit}
    (reached : Transition.Reach fileCacheStep PathsFit {} s)
    (hits : (httpFileCacheLookup s.cache path st now malloc).1 = some hit) :
    ∃ call touched,
      lastTouch (fileCacheShardIndex path) hit.slot s.journal = some (call, touched) ∧
        call.path = path ∧ call.mtime = st.mtime ∧ hit.out = call.data ∧
        hit.outLen = call.data.length ∧ now - touched ≤ 240 := by
  simp only [httpFileCacheLookup] at hits
  split at hits
  · have cases := fileCacheLookupLocked_cases (s.cache (fileCacheShardIndex path)) path st now malloc
    revert cases hits
    generalize fileCacheLookupLocked (s.cache (fileCacheShardIndex path)) path st now malloc = result
    obtain ⟨found, shard'⟩ := result
    rintro rfl cases
    cases cases with
    | hit slot used samePath sameMtime recent =>
      obtain ⟨call, touched, last, written⟩ := accounted_of_reach reached _ slot used
      refine ⟨call, touched, last, ?_, ?_, ?_, written.len, ?_⟩
      · rw [← written.path, samePath]
      · rw [← written.mtime, sameMtime]
      · simp [hitAt, written.data, written.len]
      · rw [← written.atime]
        exact recent
  · cases hits

/-- A file stored twice in one second, and found in the next. -/
theorem hit_returns_stored_bytes_cssFile :
    ∃ (s : FileCacheRun) (hit : FileCacheHit) (call : StoreCall) (touched : Int),
      (httpFileCacheLookup s.cache (lit "a.css") ⟨2, 7⟩ 101 true).1 = some hit ∧
        lastTouch (fileCacheShardIndex (lit "a.css")) hit.slot s.journal = some (call, touched) ∧
        hit.out = call.data := by
  have ran : (Transition.run (Transition.guarded PathsFit fileCacheStep) {}
      [.store (lit "a.css") ⟨2, 7⟩ (lit "ab") 100 true,
        .store (lit "a.css") ⟨2, 7⟩ (lit "ab") 100 true]).map
      (fun s => (httpFileCacheLookup s.cache (lit "a.css") ⟨2, 7⟩ 101 true).1) =
      some (some ⟨0, lit "ab", 2⟩) := by
    decide +kernel
  obtain ⟨s, reached, hits⟩ := Transition.exists_reach_of_run ran
  obtain ⟨call, touched, last, _, _, data, _, _⟩ := hit_returns_stored_bytes reached hits
  exact ⟨s, _, call, touched, hits, last, data⟩

end Miniweb.FileCacheProofs
