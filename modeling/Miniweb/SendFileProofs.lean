import Miniweb.FileCacheProofs
import Miniweb.Http.SendFile

/-! Whether a file that is sent again and again comes from the cache. A send that succeeds
returns 0, and this 0 is the length `http_send_file` hands to the store, which refuses it. -/
namespace Miniweb.SendFileProofs

open Miniweb.Lib Miniweb.Lib.CString Miniweb.Http Miniweb.FileCacheProofs

variable {cache : FileCache} {call : SendCall} {calls : List SendCall} {path : Bytes}

/-- No slot of the cache is in use. -/
def Unfilled (cache : FileCache) : Prop := ∀ shard slot, ((cache shard).entries slot).path = []

/-- A shard whose entries were only cleared. -/
private theorem Unfilled.update (unfilled : Unfilled cache) {shardIdx : Fin fileCacheShards}
    {shard' : FileCacheShard} (remains : Remains shard' (cache shardIdx).entries) :
    Unfilled (Function.update cache shardIdx shard') := by
  intro shard slot
  by_cases here : shard = shardIdx
  · subst here
    rw [Function.update_self]
    rcases remains slot with cleared | same
    · rw [cleared]
    · rw [same]
      exact unfilled _ slot
  · rw [Function.update_of_ne here]
    exact unfilled shard slot

/-- A lookup finds nothing there, and makes no entry. -/
private theorem lookup_unfilled (unfilled : Unfilled cache) (path : Bytes) (st : Stat) (now : Int)
    (malloc : Bool) :
    (httpFileCacheLookup cache path st now malloc).1 = none ∧
      Unfilled (httpFileCacheLookup cache path st now malloc).2 := by
  simp only [httpFileCacheLookup]
  split
  · have cases := fileCacheLookupLocked_cases (cache (fileCacheShardIndex path)) path st now malloc
    revert cases
    generalize fileCacheLookupLocked (cache (fileCacheShardIndex path)) path st now malloc = result
    obtain ⟨hit, shard'⟩ := result
    intro cases
    cases cases with
    | missed => exact ⟨rfl, unfilled.update (remains_enter _ _)⟩
    | hit slot used => exact absurd (unfilled _ slot) used
  · exact ⟨rfl, unfilled⟩

/-- The result of a send that succeeds is a length the store refuses. -/
private theorem store_after_send (cache : FileCache) (path : Bytes) (st : Stat) (body : Bytes)
    {rc : Int} (succeeded : rc = 0) (now : Int) (malloc : Bool) :
    httpFileCacheStore cache path st body rc.toNat now malloc = cache := by
  subst succeeded
  simp [httpFileCacheStore, storable]

private theorem sendUncached_unfilled (unfilled : Unfilled cache) (call : SendCall) (st : Stat) :
    (sendUncached cache call st).1.hit = none ∧ Unfilled (sendUncached cache call st).2 := by
  simp only [sendUncached]
  split
  · split
    · exact ⟨rfl, unfilled⟩
    · split
      · exact ⟨rfl, unfilled⟩
      · refine ⟨rfl, ?_⟩
        split
        · rename_i succeeded
          rw [store_after_send _ _ _ _ succeeded]
          exact unfilled
        · exact unfilled
  · split
    · exact ⟨rfl, unfilled⟩
    · exact ⟨rfl, unfilled⟩

/-- One call on a cache without entries does not hit and leaves none. -/
theorem send_unfilled (unfilled : Unfilled cache) (call : SendCall) :
    (httpSendFile cache call).1.hit = none ∧ Unfilled (httpSendFile cache call).2 := by
  simp only [httpSendFile]
  split
  · exact ⟨rfl, unfilled⟩
  · split
    · exact ⟨rfl, unfilled⟩
    · rename_i st _
      split
      · exact ⟨rfl, unfilled⟩
      · obtain ⟨missed, after⟩ := lookup_unfilled unfilled call.path st call.world.lookedUp
          call.world.mallocHit
        split
        · rename_i hit cache' found
          rw [found] at missed
          cases missed
        · rename_i cache' found
          rw [found] at after
          exact sendUncached_unfilled after call st

/-! ## Runs -/

/-- The cache before the first call. -/
def emptyCache : FileCache := fun _ => {}

/-- What the calls of a run do, one after another. -/
def results (calls : List SendCall) : List SendResult :=
  (Transition.answers httpSendFile emptyCache calls).1

/-- The cache after a run. -/
def cacheAfter (calls : List SendCall) : FileCache :=
  (Transition.answers httpSendFile emptyCache calls).2

private theorem answers_hit_none (unfilled : Unfilled cache) :
    ∀ result ∈ (Transition.answers httpSendFile cache calls).1, result.hit = none := by
  induction calls generalizing cache with
  | nil => nofun
  | cons call rest ih =>
    obtain ⟨missed, after⟩ := send_unfilled unfilled call
    intro result member
    rcases List.mem_cons.mp member with rfl | later
    · exact missed
    · exact ih after result later

theorem results_hit_none {result : SendResult} (member : result ∈ results calls) :
    result.hit = none :=
  answers_hit_none (fun _ _ => rfl) result member

theorem length_results (calls : List SendCall) : (results calls).length = calls.length := by
  unfold results
  generalize emptyCache = cache
  induction calls generalizing cache with
  | nil => rfl
  | cons call rest ih => simp [Transition.answers, ih]

/-- How often a path is sent. -/
def sends (path : Bytes) (calls : List SendCall) : Nat := calls.countP fun call => call.path = path

/-- The response with the file as it is. -/
def wholeFile (call : SendCall) (file : Bytes) : Bytes :=
  (httpResponseSend call.keepAlive (httpResponseSetBody (fileResponse call.mime) (.bytes file))).2

/-- From the third call for the path on, the lookup hits and the file is what is sent. -/
def CachedFromThird (path file : Bytes) (calls : List SendCall) : Prop :=
  ∀ k call result, calls[k]? = some call → (results calls)[k]? = some result → call.path = path →
    2 ≤ sends path (calls.take k) → result.hit.isSome = true ∧ result.sent = wholeFile call file

theorem sends_append_cons (path : Bytes) (front rest : List SendCall) (call : SendCall) :
    sends path (front ++ call :: rest) =
      sends path front + (sends path rest + if call.path = path then 1 else 0) := by
  simp [sends, List.countP_append, List.countP_cons]

/-- A call of the path counts behind those in front of it. -/
private theorem sends_take_lt {k : Nat} (here : calls[k]? = some call) (samePath : call.path = path) :
    sends path (calls.take k) < sends path calls := by
  obtain ⟨inside, rfl⟩ := List.getElem?_eq_some_iff.mp here
  have split : calls.take k ++ calls[k] :: calls.drop (k + 1) = calls := by simp
  have counts := sends_append_cons path (calls.take k) (calls.drop (k + 1)) calls[k]
  rw [split, if_pos samePath] at counts
  omega

/-- The third call for a path. -/
private theorem exists_third (often : 3 ≤ sends path calls) :
    ∃ k call, calls[k]? = some call ∧ call.path = path ∧ 2 ≤ sends path (calls.take k) := by
  induction calls using List.reverseRecOn with
  | nil => exact absurd often (by simp [sends])
  | append_singleton front last ih =>
    by_cases already : 3 ≤ sends path front
    · obtain ⟨k, call, here, samePath, two⟩ := ih already
      obtain ⟨inside, _⟩ := List.getElem?_eq_some_iff.mp here
      refine ⟨k, call, ?_, samePath, ?_⟩
      · rw [List.getElem?_append_left inside]
        exact here
      · rw [List.take_append_of_le_length inside.le]
        exact two
    · have nothing : sends path [] = 0 := rfl
      rw [sends_append_cons] at often
      by_cases samePath : last.path = path
      · rw [if_pos samePath] at often
        refine ⟨front.length, last, by simp, samePath, ?_⟩
        rw [List.take_left]
        omega
      · rw [if_neg samePath] at often
        omega

/-- Whatever the files, the clock and the memory: from the third call for a path on it is
served from the cache only if there is no third call. -/
theorem cachedFromThird_iff (path file : Bytes) (calls : List SendCall) :
    CachedFromThird path file calls ↔ sends path calls < 3 := by
  constructor
  · intro cached
    by_contra often
    obtain ⟨k, call, here, samePath, two⟩ := exists_third (not_lt.mp often)
    obtain ⟨inside, _⟩ := List.getElem?_eq_some_iff.mp here
    have answered : k < (results calls).length := by
      rw [length_results]
      exact inside
    obtain ⟨hit, _⟩ := cached k call _ here (List.getElem?_eq_getElem answered) samePath two
    rw [results_hit_none (List.getElem_mem answered)] at hit
    cases hit
  · intro seldom k call result here _ samePath two
    have := sends_take_lt here samePath
    omega

/-! ## Three calls in a row -/

/-- Between two calls on its shard a path loses neither a candidate nor an entry, and there
is a token left. -/
def KeepsPath (path : Bytes) (before after : FileCacheShard) : Prop :=
  0 < after.cacheInsertTokens ∧
    (∀ i, (before.candidates i).path = path → (after.candidates i).path = path) ∧
    ∀ i, (before.entries i).path = path → (after.entries i).path = path

/-- What would let the file be served from the cache: it is small and does not change, every
call succeeds, the clock moves by no more than the age limit from one call to the next, and
the shard always has a token and keeps what it has of the path. -/
structure Favourable (path file : Bytes) (mtime : Int) (calls : List SendCall) : Prop where
  size : 0 < file.length ∧ file.length ≤ fileCacheMaxBytes
  unchanged : ∀ call ∈ calls, call.path = path →
    call.world.opens = true ∧ call.world.fstat = some ⟨file.length, mtime⟩ ∧
      call.world.reads = [.data file] ∧ call.world.response = true ∧ call.world.mallocHit = true ∧
      call.world.mallocBody = true ∧ call.world.mallocEntry = true
  succeed : ∀ result ∈ results calls, result.rc = 0
  clock : ∀ call ∈ calls, call.world.lookedUp ≤ call.world.stored
  clocks : calls.IsChain fun call next =>
    call.world.stored ≤ next.world.lookedUp ∧
      next.world.stored - call.world.lookedUp ≤ fileCacheMaxAgeSec
  keeps : ∀ k < calls.length, KeepsPath path (cacheAfter (calls.take k) (fileCacheShardIndex path))
    (cacheAfter (calls.take (k + 1)) (fileCacheShardIndex path))

/-- A call that sends `ab` as `a.css` at this time. -/
def sendCss (now : Int) : SendCall where
  world :=
    { opens := true, fstat := some ⟨2, 7⟩, reads := [.data (lit "ab")], response := true
      mallocHit := true, mallocBody := true, mallocEntry := true, lookedUp := now, stored := now }
  keepAlive := true
  path := lit "a.css"
  mime := lit "text/css"

/-- A file of two bytes, sent three times in three seconds, is not in the cache. -/
theorem third_send_misses :
    ¬ ∀ (path file : Bytes) (mtime : Int) (calls : List SendCall),
      Favourable path file mtime calls → CachedFromThird path file calls := by
  intro always
  have favourable : Favourable (lit "a.css") (lit "ab") 7 [sendCss 100, sendCss 101, sendCss 102] := by
    constructor
    · decide
    · decide +kernel
    · decide +kernel
    · decide
    · decide
    · simp only [KeepsPath]
      decide +kernel
  have third : (results [sendCss 100, sendCss 101, sendCss 102])[2]?.map (fun result => result.hit) =
      some none := by
    decide +kernel
  obtain ⟨result, here, missed⟩ := Option.map_eq_some_iff.mp third
  obtain ⟨hit, _⟩ := always _ _ _ _ favourable 2 (sendCss 102) result rfl here rfl (by decide +kernel)
  rw [missed] at hit
  cases hit

end Miniweb.SendFileProofs
